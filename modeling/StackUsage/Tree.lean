import StackUsage.Path
import StackUsage.Tree.Fault

/-! A file tree as a value: directories, files and symbolic links under their real locations, and
the directory that relative paths start from. The root is always a directory. Looking a path up
follows links the way the system does: one at a time, at most forty on the way, each target taken
from the directory that holds the link, and every name but the last must lead to a directory.
Permissions, mounts, times and names that are not UTF-8 are left out.

There are two ways to look a path up, with different limits. Plain access bounds the bytes of the
path as it is spelled. Asking for the real path spells one name after another behind the real path
so far, and bounds the bytes of that. -/

namespace StackUsage

/-- The names from the root down to an entry. -/
abbrev Location := List (List Char)

namespace Tree

/-- What stands at a location. A file without a text has bytes that are not UTF-8. -/
inductive Node
  | directory
  | file (text : Option String)
  | link (target : Path)
  deriving DecidableEq, Repr

end Tree

structure Tree where
  workdir : Location
  nodes : List (Location × Tree.Node)
  deriving Repr

/-! ### Paths as walks -/

namespace Path

/-- What a piece asks of a walk: a dot, or an empty piece at the end, asks for a directory. -/
def stepOfPiece (piece : List Char) : Component :=
  if piece = [] ∨ piece = ['.'] then .here
  else if piece = ['.', '.'] then .up
  else .name piece

/-- The steps of a walk along the path: a slash at the end is one more step. -/
def steps (p : Path) : List Component :=
  let names := p.pieces.dropLast.filter (· ≠ []) ++ p.pieces.getLast?.toList
  (if p.isAbsolute then [.root] else []) ++ names.map stepOfPiece

def ofLocation (loc : Location) : Path := ofChars ('/' :: ['/'].intercalate loc)

end Path

namespace Tree

/-- The length of a text in UTF-8. -/
def byteCount (s : List Char) : Nat := (String.ofList s).utf8ByteSize

/-- Names have at most this many bytes. -/
def maxNameBytes : Nat := 255

/-- A path given to the system has fewer bytes than this. -/
def maxPathBytes : Nat := 4096

/-- Links followed during one walk. -/
def maxLinks : Nat := 40

def node? (t : Tree) (loc : Location) : Option Node :=
  if loc = [] then some .directory else t.nodes.lookup loc

/-- Where a walk ends: at an entry, or at a name that its directory does not hold. -/
inductive Spot
  | entry (loc : Location) (node : Node)
  | vacant (loc : Location)
  deriving DecidableEq, Repr

/-- How a walk goes: to the last name itself, to what that stands for, or to the same along real
paths. -/
inductive Mode
  | name
  | target
  | real
  deriving DecidableEq, Repr

/-- Whether the next steps want a directory before they name anything in it. -/
def wantsDirectory : List Component → Bool
  | .up :: _ => true
  | .here :: rest => rest = [] || wantsDirectory rest
  | _ => false

/-- Whether a walk along real paths cannot ask for this one, with so many bytes behind it. -/
def outOfReach (mode : Mode) (loc : Location) (behind : Nat) : Bool :=
  mode = .real && maxPathBytes ≤ (Path.ofLocation loc).spelling.utf8ByteSize + behind

/-- Takes the steps one after another from the directory at `loc`. Along real paths, a directory
that the next steps want is asked for with a slash behind it. A link is left to `follow`, with the
directory that holds it and the steps of its target put before the rest. -/
def walkWith (t : Tree) (mode : Mode) (follow : Location → List Component → Except Fault Spot)
    (loc : Location) : List Component → Except Fault Spot
  | [] => .ok (.entry loc .directory)
  | .root :: rest => t.walkWith mode follow [] rest
  | .here :: rest => t.walkWith mode follow loc rest
  | .up :: rest => t.walkWith mode follow loc.dropLast rest
  | .name text :: rest =>
    if maxNameBytes < byteCount text || outOfReach mode (loc ++ [text]) 0 then .error .nameTooLong
    else
      match t.node? (loc ++ [text]) with
      | none => if rest = [] then .ok (.vacant (loc ++ [text])) else .error .notFound
      | some .directory =>
        if wantsDirectory rest && outOfReach mode (loc ++ [text]) 1 then .error .nameTooLong
        else t.walkWith mode follow (loc ++ [text]) rest
      | some (.file content) =>
        if rest = [] then .ok (.entry (loc ++ [text]) (.file content)) else .error .notDirectory
      | some (.link target) =>
        if rest = [] ∧ mode = .name then .ok (.entry (loc ++ [text]) (.link target))
        else if target.chars = [] then .error .notFound
        else follow loc (target.steps ++ rest)

/-- A walk that follows at most so many links. -/
def walk (t : Tree) (mode : Mode) : Nat → Location → List Component → Except Fault Spot
  | 0 => t.walkWith mode fun _ _ => .error .tooManyLinks
  | links + 1 => t.walkWith mode fun loc steps => t.walk mode links loc steps

/-- Looks a path up. -/
def locate (t : Tree) (mode : Mode) (p : Path) : Except Fault Spot :=
  if p.chars.contains '\x00' then .error .nulInName
  else if p.chars = [] then .error .notFound
  else if mode ≠ .real ∧ maxPathBytes ≤ p.spelling.utf8ByteSize then .error .nameTooLong
  else t.walk mode maxLinks t.workdir p.steps

/-- The entry at the end of a lookup. -/
def entry (t : Tree) (mode : Mode) (p : Path) : Except Fault (Location × Node) :=
  match t.locate mode p with
  | .error fault => .error fault
  | .ok (.vacant _) => .error .notFound
  | .ok (.entry loc node) => .ok (loc, node)

/-! ### Reading -/

/-- The entry that the path denotes, links followed. -/
def find (t : Tree) (p : Path) : Except Fault (Location × Node) := t.entry .target p

/-- The target of the link that the path names, the link itself not followed. -/
def readLink (t : Tree) (p : Path) : Except Fault Path :=
  match t.entry .name p with
  | .error fault => .error fault
  | .ok (_, .link target) => .ok target
  | .ok (_, _) => .error .notLink

/-- The real path: absolute, without links, dots or steps up. -/
def canonicalize (t : Tree) (p : Path) : Except Fault Path :=
  (t.entry .real p).map fun (loc, _) => Path.ofLocation loc

/-- The real path where there is one, else the path as it is. -/
def realPath (t : Tree) (p : Path) : Path :=
  match t.canonicalize p with
  | .ok real => real
  | .error _ => p

def readText (t : Tree) (p : Path) : Except Fault String :=
  match t.find p with
  | .error fault => .error fault
  | .ok (_, .file (some text)) => .ok text
  | .ok (_, .file none) => .error .notUtf8
  | .ok (_, _) => .error .isDirectory

/-- Whether the path denotes anything, a link to nothing not counted. -/
def present (t : Tree) (p : Path) : Bool := (t.find p).isOk

def isDirectory (t : Tree) (p : Path) : Bool :=
  match t.find p with
  | .ok (_, .directory) => true
  | _ => false

def isFile (t : Tree) (p : Path) : Bool :=
  match t.find p with
  | .ok (_, .file _) => true
  | _ => false

/-- A path seen from the working directory, spelled as given. -/
def absolute (t : Tree) (p : Path) : Path := (Path.ofLocation t.workdir).join p

end Tree

end StackUsage

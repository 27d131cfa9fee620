/-! Paths as they are spelled. A path keeps its spelling, repeated slashes and dots included,
because messages and links show it; what it means is its list of components. Two paths are the
same path when their components agree: slashes at the end or repeated, and dots anywhere but at
the very start, make no difference.

A spelling is a text. Names whose bytes are not UTF-8 have none and are left out, so a path is
always the same as its text, and no name is ever shown with replacement characters. -/

namespace StackUsage

structure Path where
  spelling : String
  deriving DecidableEq, Repr, Inhabited

/-- One step of a path. `here` appears only as the first step of a relative path. -/
inductive Component
  | root
  | here
  | up
  | name (text : List Char)
  deriving DecidableEq, Repr

namespace Path

def chars (p : Path) : List Char := p.spelling.toList

def ofChars (s : List Char) : Path := ⟨String.ofList s⟩

instance : ToString Path := ⟨spelling⟩

/-- The pieces between slashes. -/
def pieces (p : Path) : List (List Char) := p.chars.splitOn '/'

def isAbsolute (p : Path) : Bool := p.chars.head? = some '/'

/-! ### Components -/

/-- What a piece says after the start of the path: empty pieces and dots say nothing. -/
def componentOfPiece (piece : List Char) : Option Component :=
  if piece = [] ∨ piece = ['.'] then none
  else if piece = ['.', '.'] then some .up
  else some (.name piece)

/-- What the start of the path says before its pieces are looked at. -/
def head (p : Path) : List Component :=
  if p.isAbsolute then [.root]
  else if p.pieces.head? = some ['.'] then [.here]
  else []

def components (p : Path) : List Component := p.head ++ p.pieces.filterMap componentOfPiece

/-- Whether two paths are the same path. -/
def same (p q : Path) : Bool := p.components = q.components

/-- Whether the path runs through `base` from the start. -/
def startsWith (p base : Path) : Bool := base.components.isPrefixOf p.components

/-! ### Parts -/

/-- The pieces without the empty ones and dots at the end; the first piece stays, since it is
what makes the path absolute or keeps a dot at the start. -/
def dropIdle : List (List Char) → List (List Char)
  | [] => []
  | first :: rest =>
    first :: (rest.reverse.dropWhile fun piece => piece = [] || piece = ['.']).reverse

/-- The spelling made of pieces; a first piece that is empty and alone stands for the root. -/
def ofPieces (pieces : List (List Char)) : Path :=
  if pieces = [[]] then ofChars ['/'] else ofChars (['/'].intercalate pieces)

/-- The last component, if it is a name. -/
def fileName (p : Path) : Option String :=
  match p.components.getLast? with
  | some (.name text) => some (String.ofList text)
  | _ => none

/-- The path without its last component; the root and the empty path have no parent. -/
def parent (p : Path) : Option Path :=
  match p.components.getLast? with
  | none => none
  | some .root => none
  | some _ =>
    match (dropIdle p.pieces).dropLast with
    | [] => some ⟨""⟩
    | pieces => some (ofPieces (dropIdle pieces))

/-- `q` seen from `p`: an absolute `q` stands alone, and the slash between them is written only
where `p` does not end in one. -/
def join (p q : Path) : Path :=
  if q.isAbsolute then q
  else if p.chars = [] ∨ p.chars.getLast? = some '/' then ofChars (p.chars ++ q.chars)
  else ofChars (p.chars ++ '/' :: q.chars)

/-- The part of a file name after its last dot, if something stands before that dot. -/
def extensionOf (name : List Char) : Option (List Char) :=
  match name.reverse.span (· ≠ '.') with
  | (_, []) => none
  | (_, [_]) => none
  | (ending, _) => some ending.reverse

def extension (p : Path) : Option String :=
  p.fileName.bind fun name => (extensionOf name.toList).map String.ofList

/-- Whether a slash stands anywhere in the text. -/
def hasSeparator (s : String) : Bool := s.toList.contains '/'

/-- Taking the last component off `n` times over. -/
def ancestorsWithin : Nat → Path → List Path
  | 0, p => [p]
  | n + 1, p =>
    match p.parent with
    | none => [p]
    | some q => p :: ancestorsWithin n q

/-- The path, its parent, the parent of that, and so on; no path has more of them than
components. -/
def ancestors (p : Path) : List Path := ancestorsWithin p.components.length p

end Path

end StackUsage

import StackUsage.Config
import StackUsage.Index
import StackUsage.Text.Lines
import StackUsage.Tree.Disk

/-! Annotations of source documents. A record belongs to a document if it is declared for the
document's real path, or for its bare file name and the line it names mentions the function. Each
such record on a line of the document becomes one decoration at the end of that line. -/

namespace StackUsage

/-- A document that the host shows. -/
structure Document where
  path : Path
  lines : List String
  deriving DecidableEq, Repr

def Document.ofText (path : Path) (text : String) : Document :=
  ⟨path, (Text.lines text.toList).map String.ofList⟩

/-- The text of a line, counted from zero. -/
def Document.line? (doc : Document) (n : Nat) : Option String := doc.lines[n]?

/-- A note at the end of a line; lines count from zero. -/
structure Decoration where
  line : Nat
  hover : String
  label : String
  deriving DecidableEq, Repr

/-- What a pass has to render: everything, or what has to do with the given declared paths. -/
inductive Affected
  | all
  | paths (names : List String)
  deriving DecidableEq, Repr

namespace Affected

/-- Whether a document with this real path has to be rendered. -/
def includes (a : Affected) (real : Path) : Bool :=
  match a with
  | .all => true
  | .paths names => names.contains real.spelling || real.fileName.any names.contains

/-- The declared paths, unless everything is concerned. -/
def names? : Affected → Option (List String)
  | .all => none
  | .paths names => some names

def pathCount (a : Affected) : Option Nat := a.names?.map List.length

end Affected

namespace Annotation

/-- The text after the last character that satisfies `p`; all of it if there is none. -/
def afterLast (p : Char → Bool) (s : List Char) : List Char :=
  (s.reverse.takeWhile fun c => !p c).reverse

/-- The bare name in a signature: before the first parenthesis and, there, after the last space
or colon. It may be empty. -/
def functionName (signature : List Char) : List Char :=
  afterLast (fun c => c = ' ' || c = ':') (signature.takeWhile (· ≠ '('))

/-- The line of a record counted from zero; a record on line zero has none. -/
def lineIndex? (u : Usage) : Option Nat :=
  if u.line = 0 then none else some (u.line.toNat - 1)

/-- The text of the document's line that the record names. -/
def lineOf? (u : Usage) (doc : Document) : Option String := (lineIndex? u).bind doc.line?

/-- Whether the record's line is there and mentions the function's name. -/
def fits (u : Usage) (doc : Document) : Bool :=
  match lineOf? u doc with
  | none => false
  | some text => Text.occursIn (functionName u.signature.toList) text.toList

/-- The records for a document: those for its real path, then those for its bare file name that
fit it. -/
def usagesFor (index : Index) (real : Path) (doc : Document) : List Usage :=
  index.query real.spelling ++
    match real.fileName with
    | none => []
    | some name => (index.query name).filter (fits · doc)

def label (u : Usage) : String :=
  let bytes := toString u.bytes.toNat ++ " bytes"
  match (u.qualifiers.toList.filter (· ≠ .static)).map Qualifier.name with
  | [] => bytes
  | names => bytes ++ " (" ++ ",".intercalate names ++ ")"

/-- The decoration of a record, if its line is in the document. -/
def decoration? (doc : Document) (u : Usage) : Option Decoration :=
  (lineIndex? u).bind fun line =>
    if (doc.line? line).isSome then some ⟨line, u.signature, label u⟩ else none

def decorations (usages : List Usage) (doc : Document) : List Decoration :=
  usages.filterMap (decoration? doc)

/-- What one document is sent, if it is a source that the pass has to render. -/
def render? (t : Tree) (config : Config) (index : Index) (affected : Affected) (doc : Document) :
    Option (Path × List Decoration) :=
  if config.isSource doc.path && affected.includes (t.realPath doc.path) then
    some (doc.path, decorations (usagesFor index (t.realPath doc.path) doc) doc)
  else none

/-- What the documents are sent, in their order; each document is one read. -/
def publish (d : Disk) (config : Config) (index : Index) (affected : Affected)
    (documents : List Document) : List (Path × List Decoration) :=
  (documents.mapIdx fun i doc => render? (d i) config index affected doc).filterMap id

end Annotation

end StackUsage

import StackUsage.Text.Blank
import StackUsage.Text.Digit
import StackUsage.Text.Numeral
import StackUsage.Text.Quoted
import StackUsage.Usage

/-! One line of a stack usage report: the place and signature of a function, its bytes and its
qualifiers, with tabs between them. The place ends at the first colon, not at the very start, after
which two runs of digits follow, each with a colon behind it; everything after that is signature,
colons and digits included. -/

namespace StackUsage.Report

/-- Why a line is no record. -/
inductive LineFault
  | fieldCount (found : Nat)
  | identifier (text : String)
  | byteCount (text : String)
  | unknownQualifier (text : String)
  | noQualifiers
  deriving DecidableEq, Repr

def LineFault.message : LineFault → String
  | .fieldCount found => "expected 3 tab-separated fields, found " ++ toString found
  | .identifier text =>
    "function identifier does not match path:line:column:signature: " ++ Text.quoted text
  | .byteCount text => "invalid byte count: " ++ Text.quoted text
  | .unknownQualifier text => "unknown qualifier: " ++ Text.quoted text
  | .noQualifiers => "empty qualifier list"

/-! ### The identifier -/

structure Identifier where
  path : String
  line : UInt32
  column : UInt32
  signature : String
  deriving DecidableEq, Repr

/-- What follows the path of an identifier: two digit runs in any script and the signature. -/
structure Tail where
  line : List Char
  column : List Char
  signature : List Char
  deriving DecidableEq, Repr

/-- A non-empty run of digits with a colon behind it, and the rest. -/
def digitField? (s : List Char) : Option (List Char × List Char) :=
  match s.span Text.isDigit with
  | ([], _) => none
  | (digits, ':' :: rest) => some (digits, rest)
  | _ => none

/-- Reads `:line:column:signature`. -/
def tail? : List Char → Option Tail
  | ':' :: s => do
    let (line, s) ← digitField? s
    let (column, signature) ← digitField? s
    return ⟨line, column, signature⟩
  | _ => none

/-- The first position from here on that a tail starts at: what stands before it, and the tail. -/
def splitTail? : List Char → Option (List Char × Tail)
  | [] => none
  | c :: rest =>
    match tail? (c :: rest) with
    | some tail => some ([], tail)
    | none => (splitTail? rest).map fun (path, tail) => (c :: path, tail)

/-- Splits an identifier; the path has at least one character. Lines and columns are ASCII digits
and fit 32 bits. -/
def identifier? (s : List Char) : Option Identifier :=
  match s with
  | [] => none
  | first :: rest =>
    if s.contains '\n' then none
    else do
      let (path, tail) ← splitTail? rest
      return {
        path := String.ofList (first :: path)
        line := ← Text.readUInt32? tail.line
        column := ← Text.readUInt32? tail.column
        signature := String.ofList tail.signature }

/-! ### The line -/

/-- The qualifier of exactly this name. -/
def qualifier (name : String) : Except LineFault Qualifier :=
  match Qualifier.ofName? name with
  | some q => .ok q
  | none => .error (.unknownQualifier name)

/-- The qualifier that a token names, blanks around it dropped. -/
def qualifierOfToken (token : List Char) : Except LineFault Qualifier :=
  qualifier (String.ofList (Text.trim token))

/-- A list of qualifiers with commas; the first unknown one is at fault. -/
def qualifiers (field : List Char) : Except LineFault Qualifiers :=
  if field.all Text.isBlank then .error .noQualifiers
  else ((field.splitOn ',').mapM qualifierOfToken).map Qualifiers.ofList

def parseLine (line : List Char) : Except LineFault Usage :=
  match line.splitOn '\t' with
  | [place, count, kinds] =>
    match identifier? place with
    | none => .error (.identifier (String.ofList place))
    | some identifier =>
      match Text.readUInt64? (Text.trim count) with
      | none => .error (.byteCount (String.ofList count))
      | some bytes =>
        (qualifiers kinds).map fun qualifiers =>
          { declaredPath := identifier.path
            line := identifier.line
            column := identifier.column
            signature := identifier.signature
            bytes
            qualifiers }
  | fields => .error (.fieldCount fields.length)

end StackUsage.Report

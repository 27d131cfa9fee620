import StackUsage.Json.Decode

/-! What a report says of one function: where it is declared, its signature, how many bytes of
stack its frame takes, and of what kind that number is. The kinds form a set, so neither order nor
repetition of qualifiers is kept. -/

namespace StackUsage

/-- A frame of constant size, one whose size varies, or a varying one with a known bound. -/
inductive Qualifier
  | static
  | dynamic
  | bounded
  deriving DecidableEq, Repr

namespace Qualifier

def all : List Qualifier := [.static, .dynamic, .bounded]

def name : Qualifier → String
  | .static => "static"
  | .dynamic => "dynamic"
  | .bounded => "bounded"

def ofName? (s : String) : Option Qualifier := all.find? (·.name = s)

theorem ofName?_name (q : Qualifier) : ofName? q.name = some q := by
  cases q <;> decide

end Qualifier

/-- A set of qualifiers. -/
structure Qualifiers where
  static : Bool
  dynamic : Bool
  bounded : Bool
  deriving DecidableEq, Repr

namespace Qualifiers

def empty : Qualifiers := ⟨false, false, false⟩

def insert (s : Qualifiers) : Qualifier → Qualifiers
  | .static => { s with static := true }
  | .dynamic => { s with dynamic := true }
  | .bounded => { s with bounded := true }

def contains (s : Qualifiers) : Qualifier → Bool
  | .static => s.static
  | .dynamic => s.dynamic
  | .bounded => s.bounded

def ofList (l : List Qualifier) : Qualifiers := l.foldl insert empty

/-- The members in their fixed order: static, dynamic, bounded. -/
def toList (s : Qualifiers) : List Qualifier := Qualifier.all.filter s.contains

def names (s : Qualifiers) : List String := s.toList.map Qualifier.name

theorem ofList_toList (s : Qualifiers) : ofList s.toList = s := by
  rcases s with ⟨_ | _, _ | _, _ | _⟩ <;> rfl

end Qualifiers

/-- One function of a report. The declared path is a real path once it has been looked up. -/
structure Usage where
  declaredPath : String
  line : UInt32
  column : UInt32
  signature : String
  bytes : UInt64
  qualifiers : Qualifiers
  deriving DecidableEq, Repr

namespace Usage

def isDynamic (u : Usage) : Bool := u.qualifiers.dynamic

/-! ### As JSON -/

def fieldNames : List String :=
  ["declared_path", "line", "column", "signature", "bytes", "qualifiers"]

def toJson (u : Usage) : Json :=
  .ofFields
    (fieldNames.zip
      [.ofText u.declaredPath, .ofNat u.line.toNat, .ofNat u.column.toNat, .ofText u.signature,
        .ofNat u.bytes.toNat, .ofTexts u.qualifiers.names])

/-- A qualifier is its name, or an object with the name as its only key and null under it. -/
def qualifier? : Json → Option Qualifier
  | .string symbols => (Json.text? (.string symbols)).bind Qualifier.ofName?
  | .object [(key, .null)] => (Json.text? (.string key)).bind Qualifier.ofName?
  | _ => none

def ofJson? (v : Json) : Option Usage := do
  match ← v.fields? fieldNames with
  | [declaredPath, line, column, signature, bytes, qualifiers] =>
    return {
      declaredPath := ← Json.required? Json.text? declaredPath
      line := ← Json.required? Json.uint32? line
      column := ← Json.required? Json.uint32? column
      signature := ← Json.required? Json.text? signature
      bytes := ← Json.required? Json.uint64? bytes
      qualifiers := .ofList (← Json.required? (Json.listOf? qualifier?) qualifiers) }
  | _ => none

/-- Reads a record from a JSON text. -/
def decode? (text : String) : Option Usage := (Json.parse? text.toList).bind ofJson?

end Usage

end StackUsage

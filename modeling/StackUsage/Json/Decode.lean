import StackUsage.Json.Value

/-! Making and taking apart JSON values. A reader gets what it asks for or nothing: a text has no
lone surrogate, a count is written as plain digits and stays below its bound. A record may be
written as an object, whose other members are ignored and whose own may not repeat, or as an array
of all its fields in their order. -/

namespace StackUsage.Json

/-! ### Making values -/

def textSymbols (s : String) : List Symbol := s.toList.map .char

def ofText (s : String) : Json := .string (textSymbols s)

def ofNat (n : Nat) : Json := .number (Text.numeral n)

def ofTexts (items : List String) : Json := .array (items.map ofText)

def ofFields (fields : List (String × Json)) : Json :=
  .object (fields.map fun (name, v) => (textSymbols name, v))

def ofOption (f : α → Json) : Option α → Json
  | none => .null
  | some a => f a

/-! ### Taking values apart -/

def text? : Json → Option String
  | .string symbols => (symbolsText? symbols).map String.ofList
  | _ => none

/-- The value of a number written as digits alone. -/
def nat? : Json → Option Nat
  | .number literal => Text.readNumeral? literal
  | _ => none

def natBelow? (bound : Nat) (v : Json) : Option Nat :=
  (nat? v).bind fun n => if n < bound then some n else none

def uint32? (v : Json) : Option UInt32 := (natBelow? UInt32.size v).map UInt32.ofNat

def uint64? (v : Json) : Option UInt64 := (natBelow? UInt64.size v).map UInt64.ofNat

def items? : Json → Option (List Json)
  | .array items => some items
  | _ => none

def listOf? (f : Json → Option α) (v : Json) : Option (List α) := (items? v).bind (·.mapM f)

def texts? : Json → Option (List String) := listOf? text?

/-- A value that may be absent or null. -/
def optional? (f : Json → Option α) : Option Json → Option (Option α)
  | none => some none
  | some .null => some none
  | some v => (f v).map some

def required? (f : Json → Option α) (v : Option Json) : Option α := v.bind f

/-- The members of an object under the texts of their keys. -/
def namedMembers? (members : List (List Symbol × Json)) : Option (List (String × Json)) :=
  members.mapM fun (key, v) => (symbolsText? key).map fun name => (String.ofList name, v)

/-- The values of the named fields of a record, in the order of the names. -/
def fields? (names : List String) : Json → Option (List (Option Json))
  | .array items => if items.length = names.length then some (items.map some) else none
  | .object members => do
    let named ← namedMembers? members
    if names.all fun name => named.countP (·.1 = name) ≤ 1 then
      return names.map fun name => (named.find? (·.1 = name)).map (·.2)
    else none
  | _ => none

end StackUsage.Json

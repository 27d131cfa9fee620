import StackUsage.Json.Value

/-! Writing JSON, on one line or with two blanks of indentation for each level. A string escapes
the quote, the backslash and the control characters below the space, and nothing else; empty
containers stay on one line in both forms. -/

namespace StackUsage.Json

def hexDigit (n : Nat) : Char := Nat.digitChar (n % 16)

def escapeUnit (code : Nat) : List Char :=
  ['\\', 'u', hexDigit (code / 0x1000), hexDigit (code / 0x100), hexDigit (code / 0x10),
    hexDigit code]

def escapeChar (c : Char) : List Char :=
  match c with
  | '"' => ['\\', '"']
  | '\\' => ['\\', '\\']
  | '\x08' => ['\\', 'b']
  | '\t' => ['\\', 't']
  | '\n' => ['\\', 'n']
  | '\x0c' => ['\\', 'f']
  | '\r' => ['\\', 'r']
  | c => if c.toNat < 0x20 then escapeUnit c.toNat else [c]

def writeSymbol : Symbol → List Char
  | .char c => escapeChar c
  | .unit code => escapeUnit code

def writeString (symbols : List Symbol) : List Char :=
  '"' :: symbols.flatMap writeSymbol ++ ['"']

/-- The word or literal of a value without parts. -/
def writeBool (b : Bool) : List Char := if b then "true".toList else "false".toList

/-! ### One line -/

mutual

def compact : Json → List Char
  | .null => "null".toList
  | .bool b => writeBool b
  | .number literal => literal
  | .string symbols => writeString symbols
  | .array items => '[' :: compactItems items ++ [']']
  | .object members => '\x7b' :: compactMembers members ++ ['\x7d']

def compactItems : List Json → List Char
  | [] => []
  | [v] => compact v
  | v :: rest => compact v ++ ',' :: compactItems rest

def compactMembers : List (List Symbol × Json) → List Char
  | [] => []
  | [(key, v)] => writeString key ++ ':' :: compact v
  | (key, v) :: rest => writeString key ++ ':' :: compact v ++ ',' :: compactMembers rest

end

/-! ### Indented -/

/-- A new line at the given level. -/
def newline (level : Nat) : List Char := '\n' :: List.replicate (2 * level) ' '

mutual

def indented (level : Nat) : Json → List Char
  | .null => "null".toList
  | .bool b => writeBool b
  | .number literal => literal
  | .string symbols => writeString symbols
  | .array [] => ['[', ']']
  | .array (v :: rest) => '[' :: indentedItems (level + 1) (v :: rest) ++ newline level ++ [']']
  | .object [] => ['\x7b', '\x7d']
  | .object (m :: rest) =>
    '\x7b' :: indentedMembers (level + 1) (m :: rest) ++ newline level ++ ['\x7d']

def indentedItems (level : Nat) : List Json → List Char
  | [] => []
  | [v] => newline level ++ indented level v
  | v :: rest => newline level ++ indented level v ++ ',' :: indentedItems level rest

def indentedMembers (level : Nat) : List (List Symbol × Json) → List Char
  | [] => []
  | [(key, v)] => newline level ++ writeString key ++ ':' :: ' ' :: indented level v
  | (key, v) :: rest =>
    newline level ++ writeString key ++ ':' :: ' ' :: indented level v ++
      ',' :: indentedMembers level rest

end

/-- The value over several lines. -/
def pretty (v : Json) : List Char := indented 0 v

end StackUsage.Json

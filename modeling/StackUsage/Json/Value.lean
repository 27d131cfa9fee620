import StackUsage.Json.Token

/-! JSON values and how a list of tokens becomes one. A value keeps what was written: the members
of an object in order with their repetitions, the literal of a number, the symbols of a string.
What a reader of a value makes of repetitions and literals is for that reader to say. -/

namespace StackUsage

inductive Json
  | null
  | bool (b : Bool)
  | number (literal : List Char)
  | string (symbols : List Json.Symbol)
  | array (items : List Json)
  | object (members : List (List Json.Symbol × Json))

namespace Json

/-- A container whose end has not come yet, with what it holds so far, last first. -/
inductive Frame
  | array (done : List Json)
  | object (done : List (List Symbol × Json))
  | member (done : List (List Symbol × Json)) (key : List Symbol)

/-- What may come next: a value; an item or the end of a new array; a member's key; a member or
the end of a new object; the colon after a key; or whatever may follow a finished value. -/
inductive Expected
  | value
  | firstItem
  | key
  | firstMember
  | colon
  | after

/-- The reading of a text part way through: the value finished last counts only in state `after`
outside every container. -/
structure Reading where
  expected : Expected
  frames : List Frame
  finished : Option Json

def Reading.start : Reading := ⟨.value, [], none⟩

/-- Hands a finished value to the innermost container. -/
def Reading.finish (frames : List Frame) (v : Json) : Option Reading :=
  match frames with
  | [] => some ⟨.after, [], some v⟩
  | .array done :: rest => some ⟨.after, .array (v :: done) :: rest, none⟩
  | .member done key :: rest => some ⟨.after, .object ((key, v) :: done) :: rest, none⟩
  | .object _ :: _ => none

/-- Takes a token that begins a value. -/
def Reading.beginValue (frames : List Frame) : Token → Option Reading
  | .null => finish frames .null
  | .bool b => finish frames (.bool b)
  | .number literal => finish frames (.number literal)
  | .string symbols => finish frames (.string symbols)
  | .openArray => some ⟨.firstItem, .array [] :: frames, none⟩
  | .openObject => some ⟨.firstMember, .object [] :: frames, none⟩
  | _ => none

/-- Takes one token; none where the grammar does not allow it. -/
def Reading.step (r : Reading) (token : Token) : Option Reading :=
  match r.expected, r.frames, token with
  | .firstItem, .array done :: rest, .closeArray => finish rest (.array done.reverse)
  | .value, frames, token => beginValue frames token
  | .firstItem, frames, token => beginValue frames token
  | .firstMember, .object done :: rest, .closeObject => finish rest (.object done.reverse)
  | .firstMember, .object done :: rest, .string key => some ⟨.colon, .member done key :: rest, none⟩
  | .key, .object done :: rest, .string key => some ⟨.colon, .member done key :: rest, none⟩
  | .colon, frames, .colon => some ⟨.value, frames, none⟩
  | .after, .array done :: rest, .comma => some ⟨.value, .array done :: rest, none⟩
  | .after, .array done :: rest, .closeArray => finish rest (.array done.reverse)
  | .after, .object done :: rest, .comma => some ⟨.key, .object done :: rest, none⟩
  | .after, .object done :: rest, .closeObject => finish rest (.object done.reverse)
  | _, _, _ => none

/-- The value that the tokens spell, all of them used. -/
def ofTokens? (tokens : List Token) : Option Json := do
  let r ← tokens.foldlM Reading.step Reading.start
  r.finished

/-- The value of a JSON text. -/
def parse? (s : List Char) : Option Json := (tokens? s).bind ofTokens?

end Json

end StackUsage

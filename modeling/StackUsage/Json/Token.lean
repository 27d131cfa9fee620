import StackUsage.Text.Numeral

/-! The tokens of a JSON text. Reading is strict: no comments, no control character inside a
string, no leading zero, and only space, tab, line feed and carriage return between tokens. A
string keeps its `\u` escapes as UTF-16 units, since half of a surrogate pair is allowed wherever
nobody asks for the text; a number keeps its literal. -/

namespace StackUsage.Json

/-- One item of a string literal: a character, or the UTF-16 unit of a `\u` escape. -/
inductive Symbol
  | char (c : Char)
  | unit (code : Nat)
  deriving DecidableEq, Repr

inductive Token
  | openObject
  | closeObject
  | openArray
  | closeArray
  | comma
  | colon
  | null
  | bool (b : Bool)
  | number (literal : List Char)
  | string (symbols : List Symbol)
  deriving DecidableEq, Repr

/-! ### Strings -/

/-- The text of a string literal, with surrogate pairs joined; none for a lone half. -/
def symbolsText? : List Symbol → Option (List Char)
  | [] => some []
  | .char c :: rest => (symbolsText? rest).map (c :: ·)
  | .unit high :: .unit low :: rest =>
    if 0xD800 ≤ high ∧ high < 0xDC00 then
      if 0xDC00 ≤ low ∧ low < 0xE000 then
        (symbolsText? rest).map
          (Char.ofNat (0x10000 + (high - 0xD800) * 0x400 + (low - 0xDC00)) :: ·)
      else none
    else if 0xDC00 ≤ high ∧ high < 0xE000 then none
    else (symbolsText? (.unit low :: rest)).map (Char.ofNat high :: ·)
  | .unit code :: rest =>
    if 0xD800 ≤ code ∧ code < 0xE000 then none
    else (symbolsText? rest).map (Char.ofNat code :: ·)

def hexDigit? (c : Char) : Option Nat :=
  if c.isDigit then some (c.toNat - '0'.toNat)
  else if 'a' ≤ c ∧ c ≤ 'f' then some (c.toNat - 'a'.toNat + 10)
  else if 'A' ≤ c ∧ c ≤ 'F' then some (c.toNat - 'A'.toNat + 10)
  else none

/-- The value of four hexadecimal digits of either case. -/
def hexUnit? (a b c d : Char) : Option Nat := do
  return (((← hexDigit? a) * 16 + (← hexDigit? b)) * 16 + (← hexDigit? c)) * 16 + (← hexDigit? d)

/-- What a one-letter escape stands for. -/
def escapeValue? : Char → Option Char
  | '"' => some '"'
  | '\\' => some '\\'
  | '/' => some '/'
  | 'b' => some '\x08'
  | 'f' => some '\x0c'
  | 'n' => some '\n'
  | 'r' => some '\r'
  | 't' => some '\t'
  | _ => none

/-- The rest of a string literal after its opening quote, and what follows the closing one. -/
def stringBody? : List Char → Option (List Symbol × List Char)
  | [] => none
  | '"' :: rest => some ([], rest)
  | '\\' :: 'u' :: a :: b :: c :: d :: rest => do
    let code ← hexUnit? a b c d
    let (symbols, after) ← stringBody? rest
    return (.unit code :: symbols, after)
  | '\\' :: e :: rest => do
    let c ← escapeValue? e
    let (symbols, after) ← stringBody? rest
    return (.char c :: symbols, after)
  | c :: rest =>
    if c.toNat < 0x20 ∨ c = '\\' then none
    else (stringBody? rest).map fun (symbols, after) => (.char c :: symbols, after)

/-! ### Numbers -/

/-- A run of digits, possibly empty, and the rest. -/
def digitRun (s : List Char) : List Char × List Char :=
  (s.takeWhile Char.isDigit, s.dropWhile Char.isDigit)

/-- A zero alone, or digits that start with another one. -/
def wholePart? : List Char → Option (List Char × List Char)
  | '0' :: rest => some (['0'], rest)
  | c :: rest =>
    if c.isDigit then some (c :: (digitRun rest).1, (digitRun rest).2) else none
  | [] => none

/-- A point with at least one digit after it; no point is an empty fraction. -/
def fractionPart? : List Char → Option (List Char × List Char)
  | '.' :: rest =>
    if (digitRun rest).1.isEmpty then none else some ('.' :: (digitRun rest).1, (digitRun rest).2)
  | s => some ([], s)

def exponentSign : List Char → List Char × List Char
  | '+' :: rest => (['+'], rest)
  | '-' :: rest => (['-'], rest)
  | s => ([], s)

/-- The mark, an optional sign and at least one digit; no mark is an empty exponent. -/
def exponentPart? : List Char → Option (List Char × List Char)
  | c :: rest =>
    if c = 'e' ∨ c = 'E' then
      if (digitRun (exponentSign rest).2).1.isEmpty then none
      else
        some (c :: (exponentSign rest).1 ++ (digitRun (exponentSign rest).2).1,
          (digitRun (exponentSign rest).2).2)
    else some ([], c :: rest)
  | [] => some ([], [])

/-- A number without its sign. -/
def unsignedLiteral? (s : List Char) : Option (List Char × List Char) := do
  let (whole, s) ← wholePart? s
  let (fraction, s) ← fractionPart? s
  let (exponent, s) ← exponentPart? s
  return (whole ++ fraction ++ exponent, s)

def numberLiteral? : List Char → Option (List Char × List Char)
  | '-' :: rest => (unsignedLiteral? rest).map fun (literal, after) => ('-' :: literal, after)
  | s => unsignedLiteral? s

/-! ### The whole text -/

/-- Blanks between tokens. -/
def isSpace (c : Char) : Bool := c = ' ' || c = '\t' || c = '\n' || c = '\r'

/-- The token at the very start of the text, and what follows it. -/
def firstToken? : List Char → Option (Token × List Char)
  | '\x7b' :: rest => some (.openObject, rest)
  | '\x7d' :: rest => some (.closeObject, rest)
  | '[' :: rest => some (.openArray, rest)
  | ']' :: rest => some (.closeArray, rest)
  | ',' :: rest => some (.comma, rest)
  | ':' :: rest => some (.colon, rest)
  | 'n' :: 'u' :: 'l' :: 'l' :: rest => some (.null, rest)
  | 't' :: 'r' :: 'u' :: 'e' :: rest => some (.bool true, rest)
  | 'f' :: 'a' :: 'l' :: 's' :: 'e' :: rest => some (.bool false, rest)
  | '"' :: rest => (stringBody? rest).map fun (symbols, after) => (.string symbols, after)
  | s => (numberLiteral? s).map fun (literal, after) => (.number literal, after)

theorem length_stringBody? {s after : List Char} {symbols : List Symbol}
    (h : stringBody? s = some (symbols, after)) : after.length < s.length := by
  fun_induction stringBody? s generalizing symbols after with
  | case1 => cases h
  | case2 rest =>
    simp only [Option.some.injEq, Prod.mk.injEq] at h
    obtain ⟨_, rfl⟩ := h
    exact Nat.lt_succ_self _
  | case3 a b c d rest ih =>
    obtain ⟨_, _, ⟨_, tail⟩, hs, h⟩ := by
      simpa only [Option.bind_eq_bind, Option.bind_eq_some_iff] using h
    cases h
    have := ih hs
    simp only [List.length_cons]
    omega
  | case4 e rest _ ih =>
    obtain ⟨_, _, ⟨_, tail⟩, hs, h⟩ := by
      simpa only [Option.bind_eq_bind, Option.bind_eq_some_iff] using h
    cases h
    have := ih hs
    simp only [List.length_cons]
    omega
  | case5 => cases h
  | case6 c rest _ _ _ _ ih =>
    obtain ⟨⟨_, tail⟩, hs, h⟩ := Option.map_eq_some_iff.1 h
    cases h
    have := ih hs
    simp only [List.length_cons]
    omega

theorem length_digitRun (s : List Char) : (digitRun s).2.length ≤ s.length :=
  (List.dropWhile_sublist _).length_le

theorem length_wholePart? {s whole after : List Char} (h : wholePart? s = some (whole, after)) :
    after.length < s.length := by
  unfold wholePart? at h
  split at h
  · cases h
    exact Nat.lt_succ_self _
  · split at h
    · cases h
      exact Nat.lt_succ_of_le (length_digitRun _)
    · cases h
  · cases h

theorem length_fractionPart? {s fraction after : List Char}
    (h : fractionPart? s = some (fraction, after)) : after.length ≤ s.length := by
  unfold fractionPart? at h
  split at h
  · split at h
    · cases h
    · cases h
      exact Nat.le_succ_of_le (length_digitRun _)
  · cases h
    exact Nat.le_refl _

theorem length_exponentSign (s : List Char) : (exponentSign s).2.length ≤ s.length := by
  unfold exponentSign
  split
  · exact Nat.le_succ _
  · exact Nat.le_succ _
  · exact Nat.le_refl _

theorem length_exponentPart? {s exponent after : List Char}
    (h : exponentPart? s = some (exponent, after)) : after.length ≤ s.length := by
  unfold exponentPart? at h
  split at h
  · split at h
    · split at h
      · cases h
      · cases h
        exact Nat.le_succ_of_le
          (Nat.le_trans (length_digitRun _) (length_exponentSign _))
    · cases h
      exact Nat.le_refl _
  · cases h
    exact Nat.le_refl _

theorem length_unsignedLiteral? {s literal after : List Char}
    (h : unsignedLiteral? s = some (literal, after)) : after.length < s.length := by
  obtain ⟨⟨_, _⟩, hw, ⟨_, _⟩, hf, ⟨_, _⟩, he, h⟩ := by
    simpa only [unsignedLiteral?, Option.bind_eq_bind, Option.bind_eq_some_iff] using h
  cases h
  exact Nat.lt_of_le_of_lt
    (Nat.le_trans (length_exponentPart? he) (length_fractionPart? hf)) (length_wholePart? hw)

theorem length_numberLiteral? {s literal after : List Char}
    (h : numberLiteral? s = some (literal, after)) : after.length < s.length := by
  unfold numberLiteral? at h
  split at h
  · obtain ⟨⟨_, _⟩, hu, h⟩ := Option.map_eq_some_iff.1 h
    cases h
    exact Nat.lt_succ_of_lt (length_unsignedLiteral? hu)
  · exact length_unsignedLiteral? h

/-- Reading a token uses up part of the text. -/
theorem length_firstToken? {s after : List Char} {token : Token}
    (h : firstToken? s = some (token, after)) : after.length < s.length := by
  unfold firstToken? at h
  split at h
  case h_10 =>
    obtain ⟨⟨_, _⟩, hs, h⟩ := Option.map_eq_some_iff.1 h
    cases h
    exact Nat.lt_succ_of_lt (length_stringBody? hs)
  case h_11 =>
    obtain ⟨⟨_, _⟩, hn, h⟩ := Option.map_eq_some_iff.1 h
    cases h
    exact length_numberLiteral? hn
  all_goals
    cases h
    simp only [List.length_cons]
    omega

/-- All tokens of the text, or none when some part of it is no token. -/
def tokens? (s : List Char) : Option (List Token) :=
  if (s.dropWhile isSpace).isEmpty then some []
  else
    match ht : firstToken? (s.dropWhile isSpace) with
    | none => none
    | some (token, after) =>
      have := length_firstToken? ht
      have := (List.dropWhile_sublist isSpace : (s.dropWhile isSpace).Sublist s).length_le
      (tokens? after).map (token :: ·)
termination_by s.length
decreasing_by omega

end StackUsage.Json

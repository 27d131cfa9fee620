import StackUsage.Json.Decode
import StackUsage.Json.Printer
import StackUsage.Proofs.Text

/-! How written tokens are read again. A string comes back symbol by symbol; a control character
that has no escape of its own comes back as the unit it was written with, so that the text is the
same and its spelling need not be. A numeral comes back whole if nothing behind it could continue a
number. Blanks between tokens do not matter. -/

namespace StackUsage.Json

/-! ### Strings -/

/-- What is read where this symbol was written. -/
def Symbol.reread : Symbol → Symbol
  | .char c => if escapeChar c = escapeUnit c.toNat then .unit c.toNat else .char c
  | .unit code => .unit (code % 0x10000)

theorem hexDigit?_hexDigit (n : Nat) : hexDigit? (hexDigit n) = some (n % 16) := by
  have digit : ∀ d < 16, hexDigit? (Nat.digitChar d) = some d := by decide
  exact digit _ (Nat.mod_lt n (by decide))

theorem stringBody?_escapeUnit (code : Nat) (s : List Char) :
    stringBody? (escapeUnit code ++ s) =
      (stringBody? s).map fun r => (.unit (code % 0x10000) :: r.1, r.2) := by
  have digits : ((code / 0x1000 % 16 * 16 + code / 0x100 % 16) * 16 + code / 0x10 % 16) * 16 +
      code % 16 = code % 0x10000 := by omega
  have value : hexUnit? (hexDigit (code / 0x1000)) (hexDigit (code / 0x100))
      (hexDigit (code / 0x10)) (hexDigit code) = some (code % 0x10000) := by
    simp only [hexUnit?, hexDigit?_hexDigit, ← digits]
    rfl
  simp only [escapeUnit, List.cons_append, List.nil_append, stringBody?, value]
  cases stringBody? s <;> rfl

theorem stringBody?_escape {e c : Char} (value : escapeValue? e = some c) (s : List Char) :
    stringBody? ('\\' :: e :: s) = (stringBody? s).map fun r => (.char c :: r.1, r.2) := by
  have letter : e ≠ 'u' := by
    rintro rfl
    cases value
  rw [stringBody?, value]
  · cases stringBody? s <;> rfl
  · exact fun _ _ _ _ _ he _ => letter he

/-- The three ways to write a character: by its number, by a letter of its own, as it is. -/
theorem escapeChar_cases (c : Char) :
    escapeChar c = escapeUnit c.toNat ∧ c.toNat < 0x20 ∨
      (∃ e, escapeChar c = ['\\', e] ∧ escapeValue? e = some c) ∨
      escapeChar c = [c] ∧ 0x20 ≤ c.toNat ∧ c ≠ '"' ∧ c ≠ '\\' := by
  unfold escapeChar
  split
  case h_8 quote backslash _ _ _ _ _ =>
    split
    · next control => exact .inl ⟨rfl, control⟩
    · next visible => exact .inr (.inr ⟨rfl, Nat.le_of_not_lt visible, quote, backslash⟩)
  all_goals exact .inr (.inl ⟨_, rfl, rfl⟩)

theorem stringBody?_char {c : Char} (visible : 0x20 ≤ c.toNat) (quote : c ≠ '"')
    (backslash : c ≠ '\\') (s : List Char) :
    stringBody? (c :: s) = (stringBody? s).map fun r => (.char c :: r.1, r.2) := by
  rw [stringBody?, if_neg (by simp [visible, backslash])]
  · exact quote
  · exact fun _ _ _ _ _ h _ => backslash h
  · exact fun _ _ h _ => backslash h

theorem stringBody?_writeSymbol (x : Symbol) (s : List Char) :
    stringBody? (writeSymbol x ++ s) = (stringBody? s).map fun r => (x.reread :: r.1, r.2) := by
  cases x with
  | unit code => exact stringBody?_escapeUnit code s
  | char c =>
    rw [writeSymbol, Symbol.reread]
    rcases escapeChar_cases c with ⟨number, control⟩ | ⟨e, letter, value⟩ |
      ⟨plain, visible, quote, backslash⟩
    · have small : c.toNat % 0x10000 = c.toNat := Nat.mod_eq_of_lt (by omega)
      rw [if_pos number, number, stringBody?_escapeUnit, small]
    · rw [if_neg (by rw [letter]; simp [escapeUnit]), letter]
      exact stringBody?_escape value s
    · rw [if_neg (by rw [plain]; simp [escapeUnit]), plain]
      exact stringBody?_char visible quote backslash s

theorem stringBody?_written (symbols : List Symbol) (s : List Char) :
    stringBody? (symbols.flatMap writeSymbol ++ '"' :: s) =
      some (symbols.map Symbol.reread, s) := by
  induction symbols with
  | nil => rfl
  | cons x symbols ih =>
    rw [List.flatMap_cons, List.append_assoc, stringBody?_writeSymbol, ih]
    rfl

/-- Nothing here could continue a number. -/
def Closes (rest : List Char) : Prop :=
  ∀ c ∈ rest.head?, c.isDigit = false ∧ c ≠ '.' ∧ c ≠ 'e' ∧ c ≠ 'E'

theorem digitRun_append {digits rest : List Char} (run : ∀ c ∈ digits, c.isDigit = true)
    (closes : Closes rest) : digitRun (digits ++ rest) = (digits, rest) := by
  have stop : ∀ c ∈ rest.head?, c.isDigit = false := fun c hc => (closes c hc).1
  rw [digitRun, List.takeWhile_append_of_pos run, List.dropWhile_append_of_pos run]
  cases rest with
  | nil => simp
  | cons c rest =>
    have hc : ¬ c.isDigit = true := by simp [stop c rfl]
    rw [List.takeWhile_cons_of_neg hc, List.dropWhile_cons_of_neg hc, List.append_nil]

theorem wholePart?_numeral (n : Nat) {rest : List Char} (closes : Closes rest) :
    wholePart? (Text.numeral n ++ rest) = some (Text.numeral n, rest) := by
  rcases Nat.eq_zero_or_pos n with rfl | positive
  · rfl
  obtain ⟨c, digits, spelled⟩ := List.exists_cons_of_ne_nil (Text.denotes_numeral n).ne_nil
  have run : ∀ d ∈ c :: digits, d.isDigit = true := spelled ▸ (Text.denotes_numeral n).digits
  obtain ⟨first, others⟩ := List.forall_mem_cons.1 run
  have leading : c ≠ '0' := by
    rintro rfl
    exact Text.head?_numeral positive (congrArg List.head? spelled)
  rw [spelled, List.cons_append, wholePart?, if_pos first, digitRun_append others closes]
  exact leading

theorem fractionPart?_of_closes {rest : List Char} (closes : Closes rest) :
    fractionPart? rest = some ([], rest) := by
  unfold fractionPart?
  split
  · exact absurd rfl (closes '.' rfl).2.1
  · rfl

theorem exponentPart?_of_closes {rest : List Char} (closes : Closes rest) :
    exponentPart? rest = some ([], rest) := by
  unfold exponentPart?
  split
  · next c _ =>
    obtain ⟨-, -, small, large⟩ := closes c rfl
    rw [if_neg (not_or.2 ⟨small, large⟩)]
  · rfl

theorem firstToken?_of_digit {c : Char} (digit : c.isDigit = true) (s : List Char) :
    firstToken? (c :: s) =
      (unsignedLiteral? (c :: s)).map fun (literal, after) => (.number literal, after) := by
  rw [firstToken?, numberLiteral?]
  all_goals
    rintro _ ⟨⟩
    exact absurd digit (by decide)

theorem firstToken?_numeral (n : Nat) {rest : List Char} (closes : Closes rest) :
    firstToken? (Text.numeral n ++ rest) = some (.number (Text.numeral n), rest) := by
  obtain ⟨c, digits, spelled⟩ := List.exists_cons_of_ne_nil (Text.denotes_numeral n).ne_nil
  have first : c.isDigit = true := (Text.denotes_numeral n).digits c (by simp [spelled])
  have literal : unsignedLiteral? (Text.numeral n ++ rest) = some (Text.numeral n, rest) := by
    simp [unsignedLiteral?, wholePart?_numeral n closes, fractionPart?_of_closes closes,
      exponentPart?_of_closes closes]
  rw [spelled, List.cons_append] at literal ⊢
  rw [firstToken?_of_digit first, literal]
  rfl

/-! ### Tokens of a text -/

theorem firstToken?_space {c : Char} (space : isSpace c = true) (s : List Char) :
    firstToken? (c :: s) = none := by
  simp only [isSpace, Bool.or_eq_true, decide_eq_true_eq] at space
  rcases space with ((rfl | rfl) | rfl) | rfl <;> rfl

theorem tokens?_eq (s : List Char) :
    tokens? s =
      if (s.dropWhile isSpace).isEmpty then some []
      else (firstToken? (s.dropWhile isSpace)).bind fun r => (tokens? r.2).map (r.1 :: ·) := by
  rw [tokens?]
  split
  · rfl
  · split
    · next nothing => simp only [nothing, Option.bind_none]
    · next token after found => simp only [found, Option.bind_some]

theorem tokens?_space {space s : List Char} (h : ∀ c ∈ space, isSpace c = true) :
    tokens? (space ++ s) = tokens? s := by
  rw [tokens?_eq, tokens?_eq s, List.dropWhile_append_of_pos h]

theorem tokens?_token {s after : List Char} {token : Token} {tokens : List Token}
    (first : firstToken? s = some (token, after)) (rest : tokens? after = some tokens) :
    tokens? s = some (token :: tokens) := by
  obtain ⟨c, s, rfl⟩ : ∃ c s', s = c :: s' :=
    List.exists_cons_of_ne_nil (by rintro rfl; cases first)
  have start : ¬ isSpace c = true := fun space => by
    cases (firstToken?_space space s).symm.trans first
  rw [tokens?_eq, List.dropWhile_cons_of_neg start, first, Option.bind_some, rest]
  rfl

end StackUsage.Json

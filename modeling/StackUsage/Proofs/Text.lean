import Mathlib.Data.List.DropRight
import StackUsage.Text.Blank
import StackUsage.Text.Digit
import StackUsage.Text.Numeral

/-! What reading a number and trimming a text find. A text denotes a number if it is a non-empty run
of ASCII digits with that value, leading zeros included; the numeral of a number is one of the texts
that denote it. Trimming leaves the text that is not blank at either end and differs from the whole
by blanks around it, and there is only one such text. The pieces of a text that is split have no
separator in them. -/

namespace StackUsage.Text

/-! ### Numbers -/

/-- A non-empty run of ASCII digits whose value to base ten is `n`. -/
structure Denotes (s : List Char) (n : Nat) : Prop where
  ne_nil : s ≠ []
  digits : ∀ c ∈ s, c.isDigit = true
  value : Nat.ofDigitChars 10 s 0 = n

/-- A run of digits for the number, perhaps with one plus sign in front. -/
def DenotesSigned (s : List Char) (n : Nat) : Prop :=
  ∃ digits, (s = digits ∨ s = '+' :: digits) ∧ Denotes digits n

theorem denotes_numeral (n : Nat) : Denotes (numeral n) n where
  ne_nil := Nat.toDigits_ne_nil
  digits _ hc := Nat.isDigit_of_mem_toDigits (by decide) (by decide) hc
  value := Nat.ofDigitChars_ten_toDigits

theorem not_mem_numeral {c : Char} (h : c.isDigit = false) (n : Nat) : c ∉ numeral n := fun hc =>
  Bool.false_ne_true (h.symm.trans ((denotes_numeral n).digits c hc))

/-- Only the numeral of zero starts with a zero. -/
theorem head?_numeral {n : Nat} (positive : 0 < n) : (numeral n).head? ≠ some '0' := by
  induction n using Nat.strongRecOn with
  | ind n ih =>
    rw [numeral, Nat.toDigits_eq_if (by decide)]
    split
    · rw [List.head?_singleton, Ne, Option.some_inj, Nat.digitChar_eq_zero]
      exact positive.ne'
    · next large =>
      have shorter := ih (n / 10) (by omega) (by omega)
      rw [numeral] at shorter
      rwa [List.head?_append_of_ne_nil _ Nat.toDigits_ne_nil]

theorem readNumeral?_eq_some {s : List Char} {n : Nat} : readNumeral? s = some n ↔ Denotes s n := by
  rw [readNumeral?, Option.ite_none_right_eq_some]
  simp only [Bool.and_eq_true, Bool.not_eq_true', List.isEmpty_eq_false_iff, List.all_eq_true,
    Option.some.injEq]
  exact ⟨fun ⟨⟨ne, digits⟩, value⟩ => ⟨ne, digits, value⟩,
    fun h => ⟨⟨h.ne_nil, h.digits⟩, h.value⟩⟩

theorem Denotes.not_plus {s : List Char} {n : Nat} : ¬ Denotes ('+' :: s) n := fun h =>
  absurd (h.digits '+' List.mem_cons_self) (by decide)

theorem readSignedNumeral?_eq_some {s : List Char} {n : Nat} :
    readSignedNumeral? s = some n ↔ DenotesSigned s n := by
  unfold readSignedNumeral? DenotesSigned
  split
  · next rest =>
    rw [readNumeral?_eq_some]
    constructor
    · exact fun h => ⟨rest, .inr rfl, h⟩
    · rintro ⟨digits, rfl | same, h⟩
      · exact absurd h Denotes.not_plus
      · exact (List.cons.inj same).2 ▸ h
  · next unsigned =>
    rw [readNumeral?_eq_some]
    constructor
    · exact fun h => ⟨s, .inl rfl, h⟩
    · rintro ⟨digits, rfl | same, h⟩
      · exact h
      · exact absurd same (unsigned digits)

theorem readUInt32?_eq_some {s : List Char} {n : UInt32} :
    readUInt32? s = some n ↔ Denotes s n.toNat := by
  rw [readUInt32?, Option.bind_eq_some_iff]
  simp only [readNumeral?_eq_some, Option.ite_none_right_eq_some, Option.some.injEq]
  constructor
  · rintro ⟨m, h, small, rfl⟩
    rwa [UInt32.toNat_ofNat_of_lt' small]
  · exact fun h => ⟨n.toNat, h, n.toNat_lt_size, UInt32.ofNat_toNat⟩

theorem readUInt64?_eq_some {s : List Char} {n : UInt64} :
    readUInt64? s = some n ↔ DenotesSigned s n.toNat := by
  rw [readUInt64?, Option.bind_eq_some_iff]
  simp only [readSignedNumeral?_eq_some, Option.ite_none_right_eq_some, Option.some.injEq]
  constructor
  · rintro ⟨m, h, small, rfl⟩
    rwa [UInt64.toNat_ofNat_of_lt' small]
  · exact fun h => ⟨n.toNat, h, n.toNat_lt_size, UInt64.ofNat_toNat⟩

/-- The ASCII digits are among the digits of all scripts. -/
theorem isDigit_of_ascii {c : Char} (h : c.isDigit = true) : isDigit c = true := by
  have range := Char.isDigit_iff_toNat.1 h
  refine List.any_eq_true.2 ⟨(0x30, 0x39), List.mem_cons_self, ?_⟩
  simpa using range

theorem isBlank_of_ascii {c : Char} (h : c.isDigit = true) : isBlank c = false := by
  have range : 0x30 ≤ c.toNat ∧ c.toNat ≤ 0x39 := Char.isDigit_iff_toNat.1 h
  simp only [isBlank, inRanges, blankRanges, List.any_cons, List.any_nil, Bool.or_false,
    Bool.or_eq_false_iff, Bool.and_eq_false_iff, decide_eq_false_iff_not]
  omega

/-! ### Trimming -/

/-- Neither the first character nor the last is blank. -/
structure Tight (s : List Char) : Prop where
  first : ∀ c ∈ s.head?, isBlank c = false
  last : ∀ c ∈ s.getLast?, isBlank c = false

theorem tight_of_forall {s : List Char} (h : ∀ c ∈ s, isBlank c = false) : Tight s :=
  ⟨fun c hc => h c (List.mem_of_mem_head? hc), fun c hc => h c (List.mem_of_getLast? hc)⟩

theorem tight_numeral (n : Nat) : Tight (numeral n) :=
  tight_of_forall fun c hc => isBlank_of_ascii ((denotes_numeral n).digits c hc)

theorem trimEnd_eq (s : List Char) : trimEnd s = s.rdropWhile isBlank := rfl

theorem tight_trim (s : List Char) : Tight (trim s) := by
  rw [trim, trimEnd_eq]
  refine ⟨fun c hc => ?_, fun c hc => ?_⟩
  · have start : (trimStart s).head? = some c := by
      obtain ⟨rest, hr⟩ := List.rdropWhile_prefix isBlank (trimStart s)
      rw [← hr, List.head?_append, hc, Option.some_or]
    have := List.head?_dropWhile_not isBlank s
    rw [trimStart] at start
    simpa [start] using this
  · have ne := List.ne_nil_of_mem (List.mem_of_getLast? hc)
    have := List.rdropWhile_last_not isBlank _ ne
    rw [List.getLast?_eq_some_getLast ne] at hc
    rw [← Option.some.inj hc]
    simpa using this

/-- The text is what is left of `s` without the blanks around it. -/
def Trims (s t : List Char) : Prop :=
  Tight t ∧ ∃ a b, s = a ++ t ++ b ∧ (∀ c ∈ a, isBlank c = true) ∧ ∀ c ∈ b, isBlank c = true

theorem trims_trim (s : List Char) : Trims s (trim s) := by
  refine ⟨tight_trim s, s.takeWhile isBlank, (trimStart s).rtakeWhile isBlank, ?_, ?_, ?_⟩
  · rw [List.append_assoc, trim, trimEnd_eq, List.rdropWhile_append_rtakeWhile, trimStart,
      List.takeWhile_append_dropWhile]
  · exact fun c hc => List.mem_takeWhile_imp hc
  · exact fun c hc => List.mem_rtakeWhile_imp hc

theorem Tight.trimStart_append {t : List Char} (tight : Tight t) (ne : t ≠ []) (b : List Char) :
    trimStart (t ++ b) = t ++ b := by
  obtain ⟨c, rest, rfl⟩ := List.exists_cons_of_ne_nil ne
  have first := tight.first c rfl
  rw [trimStart, List.cons_append, List.dropWhile_cons_of_neg (by simp [first])]

theorem Tight.trimEnd_append {t b : List Char} (tight : Tight t)
    (hb : ∀ c ∈ b, isBlank c = true) : trimEnd (t ++ b) = t := by
  have drop : trimEnd (t ++ b) = trimEnd t := by
    simp only [trimEnd, dropWhileEnd, List.reverse_append]
    rw [List.dropWhile_append_of_pos (by simpa using hb)]
  rw [drop, trimEnd_eq, List.rdropWhile_eq_self_iff]
  exact fun ne => by simpa using tight.last _ (List.getLast?_eq_some_getLast ne)

/-- Trimming finds the one text that fits. -/
theorem trim_eq_iff {s t : List Char} : trim s = t ↔ Trims s t := by
  constructor
  · rintro rfl
    exact trims_trim s
  · rintro ⟨tight, a, b, rfl, ha, hb⟩
    rw [trim, trimStart, List.append_assoc, List.dropWhile_append_of_pos ha]
    by_cases ne : t = []
    · subst ne
      rw [List.nil_append, List.dropWhile_eq_nil_iff.2 hb]
      rfl
    · exact (congrArg trimEnd (tight.trimStart_append ne b)).trans (tight.trimEnd_append hb)

theorem Tight.trim_eq {s : List Char} (h : Tight s) : trim s = s :=
  trim_eq_iff.2 ⟨h, [], [], by simp, by simp, by simp⟩

theorem Tight.append {a b : List Char} (ha : Tight a) (hb : Tight b) (starts : a ≠ [])
    (ends : b ≠ []) (between : List Char) : Tight (a ++ between ++ b) where
  first c hc := ha.first c (by rwa [List.append_assoc, List.head?_append_of_ne_nil _ starts] at hc)
  last c hc := hb.last c (by rwa [List.getLast?_append_of_ne_nil _ ends] at hc)

/-! ### Splitting -/

/-- The separator is in no piece. -/
theorem not_mem_of_mem_splitOn {x : Char} {s piece : List Char} (h : piece ∈ s.splitOn x) :
    x ∉ piece := by
  induction s generalizing piece with
  | nil =>
    rw [List.splitOn_nil, List.mem_singleton] at h
    simp [h]
  | cons c s ih =>
    rw [List.splitOn_cons_eq_if_modifyHead] at h
    split at h
    · rcases List.mem_cons.1 h with rfl | h
      · simp
      · exact ih h
    · next hc =>
      obtain ⟨first, rest, hs⟩ := List.exists_cons_of_ne_nil (List.splitOn_ne_nil x s)
      rw [hs] at h ih
      rcases List.mem_cons.1 h with rfl | h
      · have := ih List.mem_cons_self
        simp only [beq_iff_eq] at hc
        simp [this, Ne.symm hc]
      · exact ih (List.mem_cons_of_mem _ h)

end StackUsage.Text

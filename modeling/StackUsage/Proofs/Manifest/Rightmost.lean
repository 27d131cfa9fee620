import Mathlib.Data.Nat.Find
import StackUsage.Proofs.Manifest.OutputName

/-! Which marks of a compile command its report name stands between, said without a search. A line
of the command qualifies if it has a flag with something before it and behind it an object suffix,
neither at once nor at the very end. On the first line that does, the name starts behind the last
such flag and ends before the last object suffix that does not end the line, wherever that is. -/

namespace StackUsage.Manifest

/-! ### Last occurrences -/

/-- The last occurrence of a mark with sides of a kind. -/
structure LastSplit (mark : List Char) (sides : List Char → List Char → Prop)
    (s x z : List Char) : Prop where
  splits : s = x ++ mark ++ z
  fits : sides x z
  last : ∀ y w, s = y ++ mark ++ w → sides y w → y.length ≤ x.length

namespace LastSplit

variable {mark s x z y w : List Char} {sides : List Char → List Char → Prop}

theorem unique (h : LastSplit mark sides s x z) (h' : LastSplit mark sides s y w) :
    x = y ∧ z = w := by
  have same : x.length = y.length :=
    Nat.le_antisymm (h'.last x z h.splits h.fits) (h.last y w h'.splits h'.fits)
  have whole : x ++ (mark ++ z) = y ++ (mark ++ w) := by
    rw [← List.append_assoc, ← List.append_assoc, ← h.splits, ← h'.splits]
  obtain ⟨rfl, rest⟩ := List.append_inj whole same
  exact ⟨rfl, List.append_cancel_left rest⟩

/-- Where there is an occurrence at all there is a last one. -/
theorem exists_of_fits (splits : s = x ++ mark ++ z) (fits : sides x z) :
    ∃ y w, LastSplit mark sides s y w := by
  classical
  let Ends (n : ℕ) : Prop := ∃ y w, s = y ++ mark ++ w ∧ sides y w ∧ y.length = n
  have bounded {y w : List Char} (h : s = y ++ mark ++ w) : y.length ≤ s.length := by
    rw [h, List.append_assoc, List.length_append]
    exact Nat.le_add_right _ _
  obtain ⟨y, w, hs, hf, longest⟩ : Ends (Nat.findGreatest Ends s.length) :=
    Nat.findGreatest_spec (bounded splits) ⟨x, z, splits, fits, rfl⟩
  refine ⟨y, w, hs, hf, fun y' w' hs' hf' => ?_⟩
  rw [longest]
  exact Nat.le_findGreatest (bounded hs') ⟨y', w', hs', hf', rfl⟩

/-- The search from the end finds it. -/
theorem splitLast?_eq {accept : List Char → List Char → Bool}
    (decides : ∀ x z, accept x z = true ↔ sides x z) (h : LastSplit mark sides s x z) :
    splitLast? mark accept [] s = some (x, z) := by
  refine splitLast?_eq_some h.splits ((decides x z).2 h.fits) fun y w splits longer => ?_
  rw [← Bool.not_eq_true, List.reverse_nil, List.nil_append, decides]
  exact fun fits => absurd (h.last y w splits fits) (Nat.not_le.2 longer)

end LastSplit

section Search

variable {mark s : List Char} {accept : List Char → List Char → Bool}
  {sides : List Char → List Char → Prop}

theorem splitLast?_eq_none_iff (decides : ∀ x z, accept x z = true ↔ sides x z) :
    splitLast? mark accept [] s = none ↔ ∀ x z, s = x ++ mark ++ z → ¬ sides x z := by
  constructor
  · intro missed x z splits fits
    obtain ⟨y, w, last⟩ := LastSplit.exists_of_fits splits fits
    rw [last.splitLast?_eq decides] at missed
    cases missed
  · intro none
    refine splitLast?_eq_none fun x z splits => ?_
    rw [← Bool.not_eq_true, List.reverse_nil, List.nil_append, decides]
    exact none x z splits

theorem splitLast?_eq_some_iff (decides : ∀ x z, accept x z = true ↔ sides x z)
    {x z : List Char} :
    splitLast? mark accept [] s = some (x, z) ↔ LastSplit mark sides s x z := by
  refine ⟨fun found => ?_, LastSplit.splitLast?_eq decides⟩
  have some_fits : ¬ ∀ y w, s = y ++ mark ++ w → ¬ sides y w := by
    rw [← splitLast?_eq_none_iff decides, found]
    exact Option.some_ne_none _
  push Not at some_fits
  obtain ⟨y, w, splits, fits⟩ := some_fits
  obtain ⟨y, w, last⟩ := LastSplit.exists_of_fits splits fits
  rw [last.splitLast?_eq decides] at found
  cases found
  exact last

end Search

/-! ### Flags and suffixes -/

/-- Something stands on both sides. -/
def Between (x z : List Char) : Prop := x ≠ [] ∧ z ≠ []

/-- Behind a flag there is a name: an object suffix with something on both sides. -/
def Completed (rest : List Char) : Prop :=
  ∃ name behind, rest = name ++ ".o".toList ++ behind ∧ Between name behind

/-- What must stand around a flag. -/
def Usable (before rest : List Char) : Prop := before ≠ [] ∧ Completed rest

/-- The line has a flag that can be used. -/
def Qualifies (line : List Char) : Prop :=
  ∃ before rest, line = before ++ "-o ".toList ++ rest ∧ Usable before rest

/-- The name stands between the last flag that can be used and the last object suffix with something
behind it. -/
inductive Names (line name : List Char) : Prop
  | between {before rest behind : List Char}
    (flag : LastSplit "-o ".toList Usable line before rest)
    (suffix : LastSplit ".o".toList (fun _ z => z ≠ []) line
      (before ++ "-o ".toList ++ name) behind)

theorem Names.unique {line name other : List Char} (h : Names line name)
    (h' : Names line other) : name = other := by
  obtain ⟨flag, suffix⟩ := h
  obtain ⟨flag', suffix'⟩ := h'
  obtain ⟨rfl, -⟩ := flag.unique flag'
  exact List.append_cancel_left (suffix.unique suffix').1

/-- The last object suffix behind a flag is the last one of the line. -/
theorem LastSplit.behind_flag {before rest name behind : List Char}
    (h : LastSplit ".o".toList Between rest name behind) :
    LastSplit ".o".toList (fun _ z => z ≠ []) (before ++ "-o ".toList ++ rest)
      (before ++ "-o ".toList ++ name) behind := by
  refine ⟨by rw [h.splits]; simp only [List.append_assoc], h.fits.2, fun y w splits hw => ?_⟩
  by_contra longer
  rw [Nat.not_le] at longer
  -- a suffix further on would stand behind the flag too, with more before it than the name
  obtain ⟨t, rfl⟩ : before ++ "-o ".toList <+: y := by
    refine List.prefix_of_prefix_length_le (List.prefix_append _ rest) ?_ ?_
    · rw [splits, List.append_assoc y]
      exact List.prefix_append _ _
    · simp only [List.length_append] at longer ⊢
      omega
  have behind : rest = t ++ ".o".toList ++ w := by
    simp only [List.append_assoc, List.append_cancel_left_eq] at splits
    simpa using splits
  have longer : name.length < t.length := by simpa using longer
  have ht : t ≠ [] := List.ne_nil_of_length_pos (Nat.zero_lt_of_lt longer)
  exact absurd (h.last t w behind ⟨ht, hw⟩) (Nat.not_le.2 longer)

theorem between_iff (x z : List Char) : (!x.isEmpty && !z.isEmpty) = true ↔ Between x z := by
  simp [Between]

theorem objectName?_eq_some_iff {rest name : List Char} :
    objectName? rest = some name ↔ ∃ behind, LastSplit ".o".toList Between rest name behind := by
  simp only [objectName?, Option.map_eq_some_iff, Prod.exists, splitLast?_eq_some_iff between_iff]
  constructor
  · rintro ⟨x, z, last, rfl⟩
    exact ⟨z, last⟩
  · rintro ⟨z, last⟩
    exact ⟨name, z, last, rfl⟩

theorem isSome_objectName?_iff {rest : List Char} :
    (objectName? rest).isSome = true ↔ Completed rest := by
  simp only [Option.isSome_iff_exists, objectName?_eq_some_iff]
  constructor
  · rintro ⟨name, behind, last⟩
    exact ⟨name, behind, last.splits, last.fits⟩
  · rintro ⟨name, behind, splits, fits⟩
    exact LastSplit.exists_of_fits splits fits

theorem usable_iff (before rest : List Char) :
    (!before.isEmpty && (objectName? rest).isSome) = true ↔ Usable before rest := by
  rw [Bool.and_eq_true, isSome_objectName?_iff]
  simp [Usable]

theorem names_of_outputName? {line name : List Char} (h : outputName? line = some name) :
    Names line name := by
  rw [outputName?, Option.bind_eq_some_iff] at h
  obtain ⟨⟨before, rest⟩, found, complete⟩ := h
  have flag := (splitLast?_eq_some_iff usable_iff).1 found
  obtain ⟨behind, suffix⟩ := objectName?_eq_some_iff.1 complete
  have last : LastSplit ".o".toList (fun _ z => z ≠ []) line (before ++ "-o ".toList ++ name)
      behind := by
    rw [flag.splits]
    exact suffix.behind_flag
  exact .between flag last

theorem outputName?_eq_none_iff {line : List Char} :
    outputName? line = none ↔ ¬ Qualifies line := by
  rw [outputName?, Option.bind_eq_none_iff]
  constructor
  · rintro missed ⟨before, rest, splits, usable⟩
    obtain ⟨before, rest, flag⟩ := LastSplit.exists_of_fits splits usable
    have named : objectName? rest = none :=
      missed (before, rest) (flag.splitLast?_eq usable_iff)
    have complete := isSome_objectName?_iff.2 flag.fits.2
    rw [named] at complete
    cases complete
  · rintro idle ⟨before, rest⟩ found
    have flag := (splitLast?_eq_some_iff usable_iff).1 found
    exact absurd ⟨before, rest, flag.splits, flag.fits⟩ idle

theorem outputName?_eq_some_iff {line name : List Char} :
    outputName? line = some name ↔ Names line name := by
  refine ⟨names_of_outputName?, fun names => ?_⟩
  have found : outputName? line ≠ none := by
    obtain ⟨flag, -⟩ := names
    rw [Ne, outputName?_eq_none_iff, not_not]
    exact ⟨_, _, flag.splits, flag.fits⟩
  obtain ⟨other, h⟩ := Option.ne_none_iff_exists'.1 found
  rw [h, (names_of_outputName? h).unique names]

end StackUsage.Manifest

import Mathlib.Data.List.TakeDrop

/-! Patterns as the formats describe them, and how one is matched: the parts stand one behind the
other, each run is tried in the order it prefers, and the first way that lets the parts behind it
match is taken. So the runs found do not depend on how the search is carried out, and a reader that
needs no search can be compared with it. -/

namespace StackUsage.Pattern

/-- A run of characters of a kind, as long as possible or, if it is lazy, as short as possible. -/
structure Run where
  kind : Char → Bool
  optional : Bool
  lazy : Bool

/-- What a pattern is made of, one part behind the other. -/
inductive Part where
  | text (mark : List Char)
  | run (r : Run)
  /-- Nothing stands behind it. -/
  | ending

def Part.isRun : Part → Bool
  | .run _ => true
  | _ => false

/-- The non-empty runs of a kind at the front, the longest first, each with what is behind it. -/
def runs (kind : Char → Bool) : List Char → List (List Char × List Char)
  | [] => []
  | c :: rest =>
    if kind c then (runs kind rest).map (Prod.map (c :: ·) id) ++ [([c], rest)] else []

/-- The ways to take a run off the front, the preferred one first. -/
def Run.ways (r : Run) (s : List Char) : List (List Char × List Char) :=
  let all := runs r.kind s ++ if r.optional then [([], s)] else []
  if r.lazy then all.reverse else all

/-- The runs of the match at the front that prefers the first run's ways, then the second one's, and
so on. -/
def matchAt : List Part → List Char → Option (List (List Char))
  | [], _ => some []
  | .text mark :: more, s =>
    if mark.isPrefixOf s then matchAt more (s.drop mark.length) else none
  | .run r :: more, s => (r.ways s).findSome? fun (x, z) => (matchAt more z).map (x :: ·)
  | .ending :: more, s => if s.isEmpty then matchAt more s else none

/-- The runs of the match that starts first. -/
def search (parts : List Part) : List Char → Option (List (List Char))
  | [] => matchAt parts []
  | c :: s => (matchAt parts (c :: s)).or (search parts s)

/-- All that can stand on a line. -/
def inLine (c : Char) : Bool := c ≠ '\n'

theorem inLine_iff {c : Char} : inLine c = true ↔ c ≠ '\n' := decide_eq_true_iff

theorem forall_inLine {s : List Char} : (∀ c ∈ s, inLine c = true) ↔ '\n' ∉ s := by
  simp only [inLine_iff]
  exact ⟨fun all newline => all _ newline rfl, fun plain c hc same => plain (same ▸ hc)⟩

/-! ### The first success in a list -/

theorem findSome?_congr {α β : Type} {f g : α → Option β} {l : List α} (h : ∀ a ∈ l, f a = g a) :
    l.findSome? f = l.findSome? g := by
  induction l with
  | nil => rfl
  | cons a l ih =>
    rw [List.forall_mem_cons] at h
    rw [List.findSome?_cons, List.findSome?_cons, h.1, ih h.2]

theorem findSome?_bind {α β γ : Type} {f : α → Option β} {g : β → Option γ} {l : List α}
    (h : ∀ a ∈ l, ∀ b, f a = some b → g b ≠ none) :
    (l.findSome? f).bind g = l.findSome? fun a => (f a).bind g := by
  induction l with
  | nil => rfl
  | cons a l ih =>
    rw [List.forall_mem_cons] at h
    rw [List.findSome?_cons, List.findSome?_cons]
    cases hf : f a with
    | none => exact ih h.2
    | some b =>
      obtain ⟨c, hg⟩ := Option.ne_none_iff_exists'.1 (h.1 b hf)
      simp [hg]

/-- If only one element can succeed, the search comes to what that one gives. -/
theorem findSome?_eq_of_forall_ne {α β : Type} {f : α → Option β} {l : List α} {a : α} (h : a ∈ l)
    (others : ∀ b ∈ l, b ≠ a → f b = none) : l.findSome? f = f a := by
  cases found : l.findSome? f with
  | none => exact (List.findSome?_eq_none_iff.1 found a h).symm
  | some y =>
    obtain ⟨b, hb, hy⟩ := List.exists_of_findSome?_eq_some found
    by_cases same : b = a
    · rw [← hy, same]
    · cases (others b hb same).symm.trans hy

/-! ### Runs -/

section Runs

variable {kind : Char → Bool}

theorem runs_cons {c : Char} (hc : kind c = true) (rest : List Char) :
    runs kind (c :: rest) = (runs kind rest).map (Prod.map (c :: ·) id) ++ [([c], rest)] := by
  rw [runs, if_pos hc]

theorem of_mem_runs {s x z : List Char} (h : (x, z) ∈ runs kind s) :
    x ≠ [] ∧ (∀ c ∈ x, kind c = true) ∧ s = x ++ z := by
  induction s generalizing x with
  | nil => cases h
  | cons c s ih =>
    rw [runs, List.mem_ite_nil_right] at h
    obtain ⟨hc, h⟩ := h
    rw [List.mem_append, List.mem_map, List.mem_singleton] at h
    obtain ⟨⟨y, w⟩, taken, same⟩ | same := h
    · cases same
      obtain ⟨-, all, rfl⟩ := ih taken
      exact ⟨List.cons_ne_nil _ _, List.forall_mem_cons.2 ⟨hc, all⟩, rfl⟩
    · cases same
      exact ⟨List.cons_ne_nil _ _, List.forall_mem_singleton.2 hc, rfl⟩

theorem not_mem_of_mem_runs {s x z : List Char} {c : Char} (h : (x, z) ∈ runs kind s)
    (absent : c ∉ s) : c ∉ z := by
  rw [(of_mem_runs h).2.2, List.mem_append, not_or] at absent
  exact absent.2

theorem mem_runs_append {x : List Char} (ne : x ≠ []) (all : ∀ c ∈ x, kind c = true)
    (z : List Char) : (x, z) ∈ runs kind (x ++ z) := by
  induction x with
  | nil => exact absurd rfl ne
  | cons c x ih =>
    rw [List.forall_mem_cons] at all
    rw [List.cons_append, runs_cons all.1, List.mem_append]
    by_cases last : x = []
    · subst last
      exact .inr List.mem_cons_self
    · exact .inl (List.mem_map_of_mem (ih last all.2))

theorem mem_ways {r : Run} {s : List Char} {way : List Char × List Char} :
    way ∈ r.ways s ↔ way ∈ runs r.kind s ∨ r.optional = true ∧ way = ([], s) := by
  have all : way ∈ runs r.kind s ++ (if r.optional then [([], s)] else []) ↔
      way ∈ runs r.kind s ∨ r.optional = true ∧ way = ([], s) := by
    rw [List.mem_append, List.mem_ite_nil_right, List.mem_singleton]
  rw [← all]
  dsimp only [Run.ways]
  split
  · exact List.mem_reverse
  · exact Iff.rfl

theorem of_mem_ways {r : Run} {s x z : List Char} (h : (x, z) ∈ r.ways s) :
    (∀ c ∈ x, r.kind c = true) ∧ s = x ++ z := by
  obtain taken | ⟨-, empty⟩ := mem_ways.1 h
  · exact (of_mem_runs taken).2
  · cases empty
    exact ⟨fun _ h => absurd h List.not_mem_nil, rfl⟩

/-- The longest run is everything, if everything is of the kind. -/
theorem exists_runs_eq {s : List Char} (all : ∀ c ∈ s, kind c = true) (ne : s ≠ []) :
    ∃ shorter, runs kind s = (s, []) :: shorter := by
  induction s with
  | nil => exact absurd rfl ne
  | cons c s ih =>
    rw [List.forall_mem_cons] at all
    rw [runs_cons all.1]
    by_cases last : s = []
    · subst last
      exact ⟨[], rfl⟩
    · obtain ⟨shorter, longest⟩ := ih all.2 last
      rw [longest]
      exact ⟨_, rfl⟩

theorem runs_append_cons {s : List Char} {c : Char} (stop : kind c = false) (rest : List Char) :
    runs kind (s ++ c :: rest) = (runs kind s).map (Prod.map id (· ++ c :: rest)) := by
  induction s with
  | nil => simp [runs, stop]
  | cons d s ih =>
    by_cases hd : kind d = true
    · rw [List.cons_append, runs_cons hd, runs_cons hd, ih]
      simp [Function.comp_def, Prod.map]
    · simp [runs, hd]

end Runs

/-! ### Matches -/

theorem matchAt_text_append (mark s : List Char) (more : List Part) :
    matchAt (.text mark :: more) (mark ++ s) = matchAt more s := by
  rw [matchAt, if_pos (List.isPrefixOf_iff_prefix.2 (List.prefix_append mark s)), List.drop_left]

theorem matchAt_text_eq_none {mark s : List Char} (absent : ¬ mark <+: s) (more : List Part) :
    matchAt (.text mark :: more) s = none := by
  rw [matchAt, if_neg fun h => absent (List.isPrefixOf_iff_prefix.1 h)]

theorem length_of_matchAt {parts : List Part} {s : List Char} {found : List (List Char)}
    (h : matchAt parts s = some found) : found.length = parts.countP Part.isRun := by
  induction parts generalizing s found with
  | nil =>
    cases h
    rfl
  | cons part more ih =>
    cases part with
    | text mark =>
      rw [matchAt, Option.ite_none_right_eq_some] at h
      exact ih h.2
    | run r =>
      obtain ⟨⟨x, z⟩, -, hz⟩ := List.exists_of_findSome?_eq_some h
      obtain ⟨rest, hr, rfl⟩ := Option.map_eq_some_iff.1 hz
      rw [List.length_cons, ih hr, List.countP_cons]
      rfl
    | ending =>
      rw [matchAt, Option.ite_none_right_eq_some] at h
      exact ih h.2

/-- A part that takes in no newline and asks for no end. -/
def Part.Within : Part → Prop
  | .text mark => '\n' ∉ mark
  | .run r => r.kind '\n' = false
  | .ending => False

/-- Parts that are matched up to the end are matched by a single line. -/
theorem plain_of_matchAt {parts : List Part} (within : ∀ part ∈ parts, part.Within)
    {s : List Char} {found : List (List Char)} (h : matchAt (parts ++ [.ending]) s = some found) :
    '\n' ∉ s := by
  induction parts generalizing s found with
  | nil =>
    rw [List.nil_append, matchAt, Option.ite_none_right_eq_some, List.isEmpty_iff] at h
    simp [h.1]
  | cons part more ih =>
    rw [List.forall_mem_cons] at within
    obtain ⟨here, later⟩ := within
    have ih := fun {s found} => @ih later s found
    cases part with
    | text mark =>
      rw [List.cons_append, matchAt, Option.ite_none_right_eq_some,
        List.isPrefixOf_iff_prefix] at h
      obtain ⟨⟨s, rfl⟩, rest⟩ := h
      rw [List.drop_left] at rest
      exact fun newline => (List.mem_append.1 newline).elim here (ih rest)
    | run r =>
      obtain ⟨⟨x, z⟩, taken, hz⟩ := List.exists_of_findSome?_eq_some h
      obtain ⟨rest, hr, -⟩ := Option.map_eq_some_iff.1 hz
      obtain ⟨kinds, rfl⟩ := of_mem_ways taken
      refine fun newline => (List.mem_append.1 newline).elim (fun hx => ?_) (ih hr)
      cases here.symm.trans (kinds _ hx)
    | ending => exact here.elim

theorem prefix_append_newline {mark line rest : List Char} (short : '\n' ∉ mark) :
    mark <+: line ++ '\n' :: rest ↔ mark <+: line := by
  refine ⟨fun h => ?_, fun h => h.trans (List.prefix_append _ _)⟩
  rcases List.prefix_or_prefix_of_prefix h (List.prefix_append line _) with inside | around
  · exact inside
  · obtain ⟨t, rfl⟩ := around
    rw [List.prefix_append_right_inj, List.prefix_cons_iff] at h
    obtain rfl | ⟨t, rfl, -⟩ := h
    · simp
    · simp at short

/-- A match does not go past the end of a line. -/
theorem matchAt_append_newline {parts : List Part} (within : ∀ part ∈ parts, part.Within)
    (line rest : List Char) :
    matchAt parts (line ++ '\n' :: rest) = matchAt parts line := by
  induction parts generalizing line with
  | nil => rfl
  | cons part more ih =>
    rw [List.forall_mem_cons] at within
    obtain ⟨here, later⟩ := within
    have ih := ih later
    cases part with
    | text mark =>
      have short : mark <+: line ++ '\n' :: rest ↔ mark <+: line := prefix_append_newline here
      simp only [matchAt, List.isPrefixOf_iff_prefix, short]
      split
      · next inside =>
        obtain ⟨line, rfl⟩ := inside
        rw [List.append_assoc, List.drop_left, List.drop_left]
        exact ih line
      · rfl
    | run r =>
      have ways : r.ways (line ++ '\n' :: rest) =
          (r.ways line).map (Prod.map id (· ++ '\n' :: rest)) := by
        unfold Run.ways
        rw [runs_append_cons here]
        cases r.optional <;> cases r.lazy <;> simp
      rw [matchAt, matchAt, ways, List.findSome?_map]
      refine findSome?_congr ?_
      rintro ⟨x, z⟩ -
      simp [ih]
    | ending => exact here.elim

end StackUsage.Pattern

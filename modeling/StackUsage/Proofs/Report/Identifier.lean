import StackUsage.Proofs.Pattern
import StackUsage.Proofs.Text
import StackUsage.Report.Line

/-! Where the path of an identifier ends. A tail is a colon, a run of digits of any script, a colon,
another such run, a colon, and a signature; the path is the shortest non-empty one with a tail
behind it. Its two runs have to be numbers: if they are not, no later tail is tried. So a path
without colons is found whatever the signature holds. The pattern behind it is
`^(.+?):(\d+):(\d+):(.*)$`, whose first run is the lazy one. -/

namespace StackUsage.Report

open Pattern

/-! ### Tails -/

/-- A non-empty run of digits, not only ASCII ones. -/
def DigitRun (s : List Char) : Prop := s ≠ [] ∧ ∀ c ∈ s, Text.isDigit c = true

/-- The text is this tail. -/
structure Tail.Spells (tail : Tail) (s : List Char) : Prop where
  line : DigitRun tail.line
  column : DigitRun tail.column
  text : s = ':' :: (tail.line ++ ':' :: (tail.column ++ ':' :: tail.signature))

theorem digitField?_eq_some {s digits rest : List Char} :
    digitField? s = some (digits, rest) ↔ DigitRun digits ∧ s = digits ++ ':' :: rest := by
  rw [digitField?, List.span_eq_takeWhile_dropWhile]
  constructor
  · intro h
    have parts := List.takeWhile_append_dropWhile (p := Text.isDigit) (l := s)
    split at h
    · cases h
    · next found behind ne whole =>
      obtain ⟨rfl, rfl⟩ := Prod.mk.inj (Option.some.inj h)
      obtain ⟨run, rest⟩ := Prod.mk.inj whole
      rw [run, rest] at parts
      refine ⟨⟨ne, fun c hc => ?_⟩, parts.symm⟩
      rw [← run] at hc
      exact List.mem_takeWhile_imp hc
    · cases h
  · rintro ⟨⟨ne, run⟩, rfl⟩
    have stop : Text.isDigit ':' = false := by decide
    rw [List.takeWhile_append_of_pos run, List.dropWhile_append_of_pos run]
    simp [stop]

theorem tail?_eq_some {s : List Char} {tail : Tail} : tail? s = some tail ↔ tail.Spells s := by
  constructor
  · intro h
    unfold tail? at h
    split at h
    · next s =>
      simp only [Option.bind_eq_bind, Option.bind_eq_some_iff, Prod.exists] at h
      obtain ⟨line, between, hl, column, signature, hc, ht⟩ := h
      obtain ⟨line, rfl⟩ := digitField?_eq_some.1 hl
      obtain ⟨column, rfl⟩ := digitField?_eq_some.1 hc
      cases ht
      exact ⟨line, column, rfl⟩
    · cases h
  · rintro ⟨line, column, rfl⟩
    simp [tail?, digitField?_eq_some.2 ⟨line, rfl⟩, digitField?_eq_some.2 ⟨column, rfl⟩]

theorem tail?_eq_none {s : List Char} : tail? s = none ↔ ∀ tail : Tail, ¬ tail.Spells s := by
  simp only [Option.eq_none_iff_forall_ne_some, ne_eq, tail?_eq_some]

/-! ### The first tail -/

theorem splitTail?_eq_none {s : List Char} :
    splitTail? s = none ↔ ∀ i (tail : Tail), ¬ tail.Spells (s.drop i) := by
  induction s with
  | nil =>
    refine ⟨fun _ i tail h => ?_, fun _ => rfl⟩
    simpa using h.text
  | cons c rest ih =>
    constructor
    · intro h i tail spelled
      rw [splitTail?] at h
      cases here : tail? (c :: rest) with
      | some tail => simp [here] at h
      | none =>
        cases i with
        | zero => exact tail?_eq_none.1 here tail spelled
        | succ i =>
          simp only [here, Option.map_eq_none_iff] at h
          exact ih.1 h i tail spelled
    · intro h
      have here : tail? (c :: rest) = none := tail?_eq_none.2 (h 0)
      rw [splitTail?, here, ih.2 fun i => h (i + 1)]
      rfl

theorem splitTail?_eq_some {s : List Char} {i : Nat} {tail : Tail}
    (spelled : tail.Spells (s.drop i))
    (first : ∀ j < i, ∀ other : Tail, ¬ other.Spells (s.drop j)) :
    splitTail? s = some (s.take i, tail) := by
  induction s generalizing i with
  | nil => simpa using spelled.text
  | cons c rest ih =>
    cases i with
    | zero =>
      have here : tail? (c :: rest) = some tail := tail?_eq_some.2 spelled
      rw [splitTail?, here]
      rfl
    | succ i =>
      have here : tail? (c :: rest) = none := tail?_eq_none.2 (first 0 (Nat.zero_lt_succ i))
      have later := ih spelled fun j hj => first (j + 1) (Nat.succ_lt_succ hj)
      rw [splitTail?, here, later]
      rfl

/-! ### The pattern -/

def digits : Part := .run ⟨Text.isDigit, false, false⟩

/-- What the pattern has behind the path. -/
def tailParts : List Part :=
  [.text [':'], digits, .text [':'], digits, .text [':'], .run ⟨inLine, true, false⟩]

/-- The pattern up to its end: the path takes as few characters as possible, but at least one. -/
def identifierParts : List Part := .run ⟨inLine, false, true⟩ :: tailParts

theorem within_identifierParts : ∀ part ∈ identifierParts, part.Within := by
  have line : inLine '\n' = false := by decide
  have digit : Text.isDigit '\n' = false := by decide
  have text : '\n' ∉ [':'] := by decide
  simp only [identifierParts, tailParts, digits, List.forall_mem_cons]
  exact ⟨line, text, digit, text, digit, text, line, fun _ h => absurd h List.not_mem_nil⟩

/-- A run of digits in front of a colon is all the digits there are. -/
theorem matchAt_digits_colon (more : List Part) (s : List Char) :
    matchAt (digits :: .text [':'] :: more) s =
      (digitField? s).bind fun field => (matchAt more field.2).map (field.1 :: ·) := by
  have behind {x z : List Char} (taken : (x, z) ∈ runs Text.isDigit s) (colon : [':'] <+: z) :
      ∃ rest, z = ':' :: rest ∧ digitField? s = some (x, rest) := by
    obtain ⟨rest, rfl⟩ := colon
    obtain ⟨ne, all, rfl⟩ := of_mem_runs taken
    exact ⟨rest, rfl, digitField?_eq_some.2 ⟨⟨ne, all⟩, rfl⟩⟩
  have ways : (⟨Text.isDigit, false, false⟩ : Run).ways s = runs Text.isDigit s := by
    simp [Run.ways]
  rw [digits, matchAt, ways]
  cases found : digitField? s with
  | none =>
    refine List.findSome?_eq_none_iff.2 fun way taken => ?_
    refine Option.map_eq_none_iff.2 (matchAt_text_eq_none (fun colon => ?_) more)
    obtain ⟨rest, -, other⟩ := behind taken colon
    cases found.symm.trans other
  | some field =>
    obtain ⟨x, z⟩ := field
    obtain ⟨⟨ne, all⟩, hs⟩ := digitField?_eq_some.1 found
    have longest : (x, ':' :: z) ∈ runs Text.isDigit s := hs ▸ mem_runs_append ne all (':' :: z)
    refine (findSome?_eq_of_forall_ne longest ?_).trans ?_
    · rintro ⟨y, w⟩ taken other
      refine Option.map_eq_none_iff.2 (matchAt_text_eq_none (fun colon => other ?_) more)
      obtain ⟨rest, rfl, same⟩ := behind taken colon
      cases found.symm.trans same
      rfl
    · exact congrArg (Option.map (x :: ·)) (matchAt_text_append [':'] z more)

/-- All that is left of a line is taken in up to the end. -/
theorem matchAt_rest {s : List Char} (plain : '\n' ∉ s) :
    matchAt [.run ⟨inLine, true, false⟩, .ending] s = some [s] := by
  by_cases ne : s = []
  · subst ne
    rfl
  · obtain ⟨shorter, longest⟩ := exists_runs_eq (forall_inLine.2 plain) ne
    simp [matchAt, Run.ways, longest]

/-- The runs of a tail. -/
def Tail.fields (tail : Tail) : List (List Char) := [tail.line, tail.column, tail.signature]

theorem matchAt_tailParts {s : List Char} (plain : '\n' ∉ s) :
    matchAt (tailParts ++ [.ending]) s = (tail? s).map Tail.fields := by
  unfold tail?
  split
  · next s =>
    refine (matchAt_text_append [':'] s _).trans ?_
    change matchAt (digits :: .text [':'] :: digits :: .text [':'] ::
      [.run ⟨inLine, true, false⟩, .ending]) s = _
    rw [matchAt_digits_colon]
    simp only [Option.bind_eq_bind]
    cases hl : digitField? s with
    | none => rfl
    | some line =>
      obtain ⟨line, between⟩ := line
      simp only [Option.bind_some, matchAt_digits_colon]
      cases hc : digitField? between with
      | none => rfl
      | some column =>
        obtain ⟨column, signature⟩ := column
        obtain ⟨-, rfl⟩ := digitField?_eq_some.1 hc
        obtain ⟨-, rfl⟩ := digitField?_eq_some.1 hl
        have plain : '\n' ∉ signature := fun newline => plain (by simp [newline])
        simp [matchAt_rest plain, Tail.fields]
  · next colonless =>
    refine matchAt_text_eq_none ?_ _
    rintro ⟨rest, rfl⟩
    exact colonless rest rfl

/-- The shortest run that a tail follows ends at the first tail. -/
theorem findSome?_tail? {c : Char} {s : List Char} (plain : '\n' ∉ c :: s) :
    (runs inLine (c :: s)).reverse.findSome? (fun way => (tail? way.2).map (way.1, ·)) =
      (splitTail? s).map (Prod.map (c :: ·) id) := by
  induction s generalizing c with
  | nil => simp [runs, tail?, splitTail?]
  | cons d s ih =>
    rw [List.mem_cons, not_or] at plain
    rw [runs_cons (inLine_iff.2 (Ne.symm plain.1)), List.reverse_append, List.reverse_singleton,
      List.singleton_append, List.findSome?_cons, splitTail?]
    dsimp only
    cases here : tail? (d :: s) with
    | some tail => rfl
    | none =>
      have further : (fun way => (tail? way.2).map (way.1, ·)) ∘ Prod.map (c :: ·) id =
          Option.map (Prod.map (c :: ·) id) ∘ fun way => (tail? way.2).map (way.1, ·) := by
        funext way
        cases h : tail? way.2 <;> simp [h]
      rw [← List.map_reverse, List.findSome?_map, further, ← List.map_findSome?, ih plain.2]
      rfl

theorem identifier?_of_newline {s : List Char} (h : '\n' ∈ s) : identifier? s = none := by
  cases s with
  | nil => rfl
  | cons c rest => rw [identifier?, if_pos (List.contains_iff_mem.2 h)]

/-- What the runs of a match come to; the numbers are ASCII digits and fit 32 bits. -/
def ofRuns? : List (List Char) → Option Identifier
  | [path, line, column, signature] => do
    return {
      path := String.ofList path
      line := ← Text.readUInt32? line
      column := ← Text.readUInt32? column
      signature := String.ofList signature }
  | _ => none

/-- What is read step by step are the runs of the pattern. -/
theorem identifier?_eq_matchAt (s : List Char) :
    identifier? s = (matchAt (identifierParts ++ [.ending]) s).bind ofRuns? := by
  by_cases newline : '\n' ∈ s
  · have missed : matchAt (identifierParts ++ [.ending]) s = none :=
      Option.eq_none_iff_forall_ne_some.2 fun _ found =>
        plain_of_matchAt within_identifierParts found newline
    rw [identifier?_of_newline newline, missed]
    rfl
  · cases s with
    | nil => rfl
    | cons c s =>
      have found : matchAt (identifierParts ++ [.ending]) (c :: s) =
          (splitTail? s).map fun split => (c :: split.1) :: split.2.fields := by
        have ways : (⟨inLine, false, true⟩ : Run).ways (c :: s) =
            (runs inLine (c :: s)).reverse := by simp [Run.ways]
        have tails : ∀ way ∈ (runs inLine (c :: s)).reverse,
            (matchAt (tailParts ++ [.ending]) way.2).map (way.1 :: ·) =
              ((tail? way.2).map (way.1, ·)).map fun split => split.1 :: split.2.fields := by
          intro way taken
          rw [matchAt_tailParts (not_mem_of_mem_runs (List.mem_reverse.1 taken) newline)]
          simp [Function.comp_def]
        rw [identifierParts, List.cons_append, matchAt, ways, findSome?_congr tails]
        exact (List.map_findSome? ..).symm.trans
          ((congrArg _ (findSome?_tail? newline)).trans (by simp [Function.comp_def]))
      rw [found, identifier?, if_neg (by simpa using newline)]
      cases splitTail? s <;> rfl

/-! ### The path -/

/-- The path is what stands before place `i`: the tail begins there, and none begins at an earlier
place behind the first character. -/
structure SplitsAt (s : List Char) (i : Nat) (tail : Tail) : Prop where
  started : 1 ≤ i
  spelled : tail.Spells (s.drop i)
  first : ∀ j, 1 ≤ j → j < i → ∀ other : Tail, ¬ other.Spells (s.drop j)

theorem identifier?_of_splitless {s : List Char}
    (h : ∀ i, 1 ≤ i → ∀ tail : Tail, ¬ tail.Spells (s.drop i)) : identifier? s = none := by
  cases s with
  | nil => rfl
  | cons c rest =>
    have none : splitTail? rest = none :=
      splitTail?_eq_none.2 fun i => h (i + 1) (Nat.le_add_left 1 i)
    simp [identifier?, none]

theorem identifier?_of_splitsAt {s : List Char} {i : Nat} {tail : Tail} (plain : '\n' ∉ s)
    (h : SplitsAt s i tail) :
    identifier? s = do
      return {
        path := String.ofList (s.take i)
        line := ← Text.readUInt32? tail.line
        column := ← Text.readUInt32? tail.column
        signature := String.ofList tail.signature } := by
  obtain ⟨i, rfl⟩ := Nat.exists_eq_add_of_le' h.started
  cases s with
  | nil => simpa using h.spelled.text
  | cons c rest =>
    have found : splitTail? rest = some (rest.take i, tail) :=
      splitTail?_eq_some h.spelled fun j hj =>
        h.first (j + 1) (Nat.le_add_left 1 j) (Nat.succ_lt_succ hj)
    rw [identifier?, if_neg (by simpa using plain), found]
    rfl

/-! ### Written identifiers -/

/-- The identifier as reports have it, numbers in decimal. -/
def Identifier.written (x : Identifier) : List Char :=
  x.path.toList ++ ':' :: (Text.numeral x.line.toNat ++ ':' ::
    (Text.numeral x.column.toNat ++ ':' :: x.signature.toList))

theorem digitRun_numeral (n : Nat) : DigitRun (Text.numeral n) :=
  ⟨(Text.denotes_numeral n).ne_nil,
    fun c hc => Text.isDigit_of_ascii ((Text.denotes_numeral n).digits c hc)⟩

/-- What an identifier does not have in its path and signature it has nowhere, colons and digits
apart. -/
theorem not_mem_written {x : Identifier} {c : Char} (colon : c ≠ ':') (digit : c.isDigit = false)
    (path : c ∉ x.path.toList) (signature : c ∉ x.signature.toList) : c ∉ x.written := by
  simp only [Identifier.written, List.mem_append, List.mem_cons, not_or]
  exact ⟨path, colon, Text.not_mem_numeral digit _, colon, Text.not_mem_numeral digit _, colon,
    signature⟩

theorem splitsAt_written {x : Identifier} (named : x.path ≠ "") (plain : ':' ∉ x.path.toList) :
    SplitsAt x.written x.path.toList.length
      ⟨Text.numeral x.line.toNat, Text.numeral x.column.toNat, x.signature.toList⟩ where
  started := List.length_pos_iff.2 (by simpa using named)
  spelled := by
    rw [Identifier.written, List.drop_left]
    exact ⟨digitRun_numeral _, digitRun_numeral _, rfl⟩
  first j _ before other spelled := by
    -- every tail starts with a colon, and the path has none
    have colon : x.written[j]? = some ':' := by
      rw [← List.head?_drop, spelled.text]
      rfl
    rw [Identifier.written, List.getElem?_append_left before] at colon
    exact plain (List.mem_of_getElem? colon)

theorem identifier?_written {x : Identifier} (named : x.path ≠ "") (plain : ':' ∉ x.path.toList)
    (path : '\n' ∉ x.path.toList) (signature : '\n' ∉ x.signature.toList) :
    identifier? x.written = some x := by
  have line := not_mem_written (by decide) (by decide) path signature
  rw [identifier?_of_splitsAt line (splitsAt_written named plain),
    Text.readUInt32?_eq_some.2 (Text.denotes_numeral _),
    Text.readUInt32?_eq_some.2 (Text.denotes_numeral _), Identifier.written, List.take_left]
  simp

/-- The run is a number below 2^32, in ASCII digits. -/
def Fits (s : List Char) : Prop := ∃ n < UInt32.size, Text.Denotes s n

theorem readUInt32?_eq_none {s : List Char} (h : ¬ Fits s) : Text.readUInt32? s = none := by
  rw [Option.eq_none_iff_forall_ne_some]
  exact fun n hn => h ⟨n.toNat, n.toNat_lt_size, Text.readUInt32?_eq_some.1 hn⟩

/-- The path of an identifier is the shortest with a tail behind it. There is no identifier in a
text with a newline or without a tail behind its first character. Otherwise the first such tail
decides: if both its runs are ASCII numbers below 2^32, path, numbers and signature are what stands
before it and in it, and if not, there is no identifier, whatever follows. So every identifier
whose path is neither empty nor has a colon is read back from its parts, however many colons and
digits its signature has, as long as there is no newline. All this is what the pattern finds, whose
first run is lazy. -/
theorem identifier?_shortest (s : List Char) :
    ('\n' ∈ s ∨ (∀ i, 1 ≤ i → ∀ tail : Tail, ¬ tail.Spells (s.drop i)) → identifier? s = none) ∧
    (∀ i tail, '\n' ∉ s → SplitsAt s i tail →
      (∀ line column : UInt32, Text.Denotes tail.line line.toNat →
        Text.Denotes tail.column column.toNat →
        identifier? s =
          some ⟨String.ofList (s.take i), line, column, String.ofList tail.signature⟩) ∧
      (¬ (Fits tail.line ∧ Fits tail.column) → identifier? s = none)) ∧
    (∀ x : Identifier, x.path ≠ "" → ':' ∉ x.path.toList → '\n' ∉ x.path.toList →
      '\n' ∉ x.signature.toList → identifier? x.written = some x) ∧
    identifier? s = (matchAt (identifierParts ++ [.ending]) s).bind ofRuns? := by
  refine ⟨?_, fun i tail plain h => ⟨fun line column hl hc => ?_, fun unfit => ?_⟩,
    fun x => identifier?_written, identifier?_eq_matchAt s⟩
  · rintro (newline | splitless)
    · exact identifier?_of_newline newline
    · exact identifier?_of_splitless splitless
  · rw [identifier?_of_splitsAt plain h, Text.readUInt32?_eq_some.2 hl,
      Text.readUInt32?_eq_some.2 hc]
    rfl
  · rw [identifier?_of_splitsAt plain h]
    rcases not_and_or.1 unfit with line | column
    · rw [readUInt32?_eq_none line]
      rfl
    · rw [readUInt32?_eq_none column]
      cases Text.readUInt32? tail.line <;> rfl

/-! ### Colons and digits on both sides -/

/-- A path and a signature that both have what looks like half a tail and more. -/
def colons : List Char := "x:1:y:2:3:f:4:5:g".toList

theorem splitsAt_colons : SplitsAt colons 5 ⟨['2'], ['3'], "f:4:5:g".toList⟩ where
  started := by decide
  spelled := ⟨⟨by decide, List.forall_mem_singleton.2 rfl⟩,
    ⟨by decide, List.forall_mem_singleton.2 rfl⟩, by decide⟩
  first := by
    have none : ∀ j < 5, 1 ≤ j → tail? (colons.drop j) = none := by decide
    exact fun j started before => tail?_eq_none.1 (none j before started)

/-- The first tail has a digit that is not ASCII, and a good one follows. -/
def foreign : List Char := "x:1:٣:f:4:5:g".toList

theorem splitsAt_foreign : SplitsAt foreign 1 ⟨['1'], ['٣'], "f:4:5:g".toList⟩ where
  started := by decide
  spelled := ⟨⟨by decide, List.forall_mem_singleton.2 rfl⟩,
    ⟨by decide, List.forall_mem_singleton.2 rfl⟩, by decide⟩
  first j started before := by omega

theorem identifier?_shortest_colons :
    identifier? colons = some ⟨"x:1:y", 2, 3, "f:4:5:g"⟩ ∧ identifier? foreign = none ∧
      identifier? "m.c:1:5:f\n".toList = none ∧
      identifier? "m.c:1:5:f:2:3:g".toList = some ⟨"m.c", 1, 5, "f:2:3:g"⟩ := by
  refine ⟨?_, ?_, ?_, ?_⟩
  · exact ((identifier?_shortest colons).2.1 5 _ (by decide) splitsAt_colons).1 2 3
      ⟨by decide, List.forall_mem_singleton.2 rfl, by decide⟩
      ⟨by decide, List.forall_mem_singleton.2 rfl, by decide⟩
  · refine ((identifier?_shortest foreign).2.1 1 _ (by decide) splitsAt_foreign).2 ?_
    rintro ⟨-, n, -, number⟩
    exact absurd (number.digits '٣' (by decide)) (by decide)
  · exact (identifier?_shortest _).1 (.inl (by decide))
  · exact (identifier?_shortest []).2.2.1 ⟨"m.c", 1, 5, "f:2:3:g"⟩ (by decide) (by decide)
      (by decide) (by decide)

end StackUsage.Report

import StackUsage.Proofs.Manifest.Rightmost
import StackUsage.Proofs.Pattern

/-! The pattern behind the reading of object names, `.+-o (.+)\.o.+`, and how it is searched for: at
the first place of a whole command where it matches, and there with each run as long as the runs
before it and the parts behind it leave it. The name is the second run. The search line by line from
the end of each finds the same name. -/

namespace StackUsage.Manifest

open Pattern

/-- One character or more of a line, as many as possible. -/
def dots : Part := .run ⟨inLine, false, false⟩

def objectSuffix : List Part := [dots, .text ".o".toList, dots]

def outputFlag : List Part := dots :: .text "-o ".toList :: objectSuffix

theorem matchAt_dots_cons (more : List Part) (s : List Char) :
    matchAt (dots :: more) s =
      (runs inLine s).findSome? fun (x, z) => (matchAt more z).map (x :: ·) := by
  simp [dots, matchAt, Run.ways]

/-! ### One line -/

section Line

variable {line : List Char}

/-- The split at a mark right behind a run. -/
def splitBehind? (mark : List Char) (accept : List Char → List Char → Bool) (before : List Char) :
    List Char × List Char → Option (List Char × List Char)
  | (x, z) =>
    if mark.isPrefixOf z && accept (before ++ x) (z.drop mark.length) then
      some (before ++ x, z.drop mark.length)
    else none

theorem splitLast?_cons {mark : List Char} {accept : List Char → List Char → Bool}
    (before : List Char) (c : Char) (rest : List Char) :
    splitLast? mark accept before (c :: rest) =
      (splitLast? mark accept (c :: before) rest).or
        (splitBehind? mark accept before.reverse ([], c :: rest)) := by
  rw [splitLast?, splitBehind?, List.append_nil]
  cases splitLast? mark accept (c :: before) rest <;> rfl

/-- The last mark of a line is the first one that is found behind its runs, or at its start. -/
theorem splitLast?_eq_findSome? {mark : List Char} {accept : List Char → List Char → Bool}
    (plain : '\n' ∉ line) (before : List Char) :
    splitLast? mark accept before line =
      (runs inLine line ++ [([], line)]).findSome? (splitBehind? mark accept before.reverse) := by
  induction line generalizing before with
  | nil => simp [splitLast?, runs, splitBehind?]
  | cons c line ih =>
    rw [List.mem_cons, not_or] at plain
    have further : (runs inLine line ++ [([], line)]).findSome?
          (splitBehind? mark accept (c :: before).reverse) =
        (runs inLine (c :: line)).findSome? (splitBehind? mark accept before.reverse) := by
      have shift : runs inLine (c :: line) =
          (runs inLine line ++ [([], line)]).map (Prod.map (c :: ·) id) := by
        rw [runs_cons (inLine_iff.2 (Ne.symm plain.1)), List.map_append]
        rfl
      rw [shift, List.findSome?_map]
      refine findSome?_congr ?_
      rintro ⟨x, z⟩ -
      simp [splitBehind?]
    rw [splitLast?_cons, ih plain.2, further, List.findSome?_append, List.findSome?_singleton]

/-- A run in front of a text ends where the search for the text from the end does. -/
theorem matchAt_dots_text {mark : List Char} {more : List Part}
    {found? : List Char → Option (List (List Char))}
    (agree : ∀ z, '\n' ∉ z → matchAt more z = found? z) (plain : '\n' ∉ line) :
    matchAt (dots :: .text mark :: more) line =
      (splitLast? mark (fun x z => !x.isEmpty && (found? z).isSome) [] line).bind
        fun (x, z) => (found? z).map (x :: ·) := by
  have start : splitBehind? mark (fun x z => !x.isEmpty && (found? z).isSome) [] ([], line) =
      none := by simp [splitBehind?]
  rw [splitLast?_eq_findSome? plain, List.findSome?_append, List.findSome?_singleton,
    List.reverse_nil, start, Option.or_none, findSome?_bind, matchAt_dots_cons]
  · refine findSome?_congr ?_
    rintro ⟨x, z⟩ hr
    have started : x.isEmpty = false := by simpa using (of_mem_runs hr).1
    have rest : matchAt more (z.drop mark.length) = found? (z.drop mark.length) :=
      agree _ fun h => not_mem_of_mem_runs hr plain (List.mem_of_mem_drop h)
    by_cases here : mark.isPrefixOf z
    · cases found : found? (z.drop mark.length) <;>
        simp [matchAt, splitBehind?, here, started, rest, found]
    · simp [matchAt, splitBehind?, here]
  · rintro ⟨x, z⟩ - ⟨y, w⟩ split
    simp only [splitBehind?, Option.ite_none_right_eq_some, Bool.and_eq_true,
      Option.some.injEq, Prod.mk.injEq] at split
    obtain ⟨⟨-, -, complete⟩, rfl, rfl⟩ := split
    simpa [Option.isSome_iff_ne_none] using complete

/-- A run at the end of a pattern takes all that is left of the line. -/
theorem matchAt_dots (plain : '\n' ∉ line) :
    matchAt [dots] line = if line.isEmpty then none else some [line] := by
  by_cases ne : line = []
  · subst ne
    rfl
  · obtain ⟨shorter, longest⟩ := exists_runs_eq (forall_inLine.2 plain) ne
    simp [matchAt_dots_cons, matchAt, longest, ne]

theorem matchAt_objectSuffix (plain : '\n' ∉ line) :
    matchAt objectSuffix line =
      (splitLast? ".o".toList (fun x z => !x.isEmpty && !z.isEmpty) [] line).map
        fun (x, z) => [x, z] := by
  have same : (fun x z : List Char =>
      !x.isEmpty && (if z.isEmpty then none else some [z]).isSome) =
      fun x z => !x.isEmpty && !z.isEmpty := by
    funext x z
    cases z <;> rfl
  rw [objectSuffix, matchAt_dots_text (fun z => matchAt_dots) plain, same]
  cases found : splitLast? ".o".toList (fun x z => !x.isEmpty && !z.isEmpty) [] line with
  | none => rfl
  | some split =>
    obtain ⟨x, z⟩ := split
    have fits := ((splitLast?_eq_some_iff between_iff).1 found).fits
    simp [fits.2]

/-- On one line the pattern finds the name that the searches from the end find. -/
theorem matchAt_outputFlag (plain : '\n' ∉ line) :
    (matchAt outputFlag line).bind (·[1]?) = outputName? line := by
  rw [outputFlag, matchAt_dots_text (fun z => matchAt_objectSuffix) plain, outputName?,
    Option.bind_assoc]
  simp only [Option.isSome_map, objectName?]
  refine congrArg _ (funext ?_)
  rintro ⟨x, z⟩
  cases splitLast? ".o".toList (fun x z => !x.isEmpty && !z.isEmpty) [] z <;> rfl

end Line

/-! ### Lines -/

theorem within_outputFlag : ∀ part ∈ outputFlag, part.Within := by
  have text : '\n' ∉ "-o ".toList ∧ '\n' ∉ ".o".toList := by decide
  have dots : dots.Within := by
    change inLine '\n' = false
    decide
  simp only [outputFlag, objectSuffix, List.forall_mem_cons]
  exact ⟨dots, text.1, dots, text.2, dots, fun _ h => absurd h List.not_mem_nil⟩

section Search

variable {more : List Part}

theorem search_of_plain {line : List Char} (plain : '\n' ∉ line) :
    search (dots :: more) line = matchAt (dots :: more) line := by
  induction line with
  | nil => rfl
  | cons c line ih =>
    rw [List.mem_cons, not_or] at plain
    rw [search, ih plain.2]
    cases found : matchAt (dots :: more) (c :: line) with
    | some ways => rfl
    | none =>
      -- a match further on could start here, with a longer first run
      rw [matchAt_dots_cons, runs_cons (inLine_iff.2 (Ne.symm plain.1)),
        List.findSome?_eq_none_iff] at found
      rw [Option.none_or, matchAt_dots_cons, List.findSome?_eq_none_iff]
      rintro ⟨x, z⟩ hr
      have := found (c :: x, z) (List.mem_append_left _ (List.mem_map_of_mem hr))
      simpa using this

theorem search_append_newline (within : ∀ part ∈ dots :: more, part.Within)
    (line rest : List Char) :
    search (dots :: more) (line ++ '\n' :: rest) =
      (search (dots :: more) line).or (search (dots :: more) rest) := by
  induction line with
  | nil => rfl
  | cons c line ih =>
    have first := matchAt_append_newline within (c :: line) rest
    rw [List.cons_append, search, ← List.cons_append, first, ih, search, Option.or_assoc]

end Search

theorem findSome?_outputName? (text : List Char) :
    (text.splitOn '\n').findSome? outputName? = (search outputFlag text).bind (·[1]?) := by
  by_cases newline : '\n' ∈ text
  · obtain ⟨line, rest, rfl, plain⟩ := List.eq_append_cons_of_mem newline
    have later := findSome?_outputName? rest
    rw [outputFlag] at later ⊢
    rw [List.splitOn_append_cons_self_of_not_mem plain, List.findSome?_cons, later,
      search_append_newline within_outputFlag, search_of_plain plain, ← matchAt_outputFlag plain,
      outputFlag]
    cases found : matchAt (dots :: .text "-o ".toList :: objectSuffix) line with
    | none => rfl
    | some ways =>
      have second : 1 < ways.length := by
        rw [length_of_matchAt found]
        decide
      simp [second]
  · rw [List.splitOn_eq_singleton newline, List.findSome?_singleton, outputFlag,
      search_of_plain newline]
    exact (matchAt_outputFlag newline).symm
termination_by text.length

/-- The report name is the pattern's. What is read line by line, from the end of each, is the
second run of the first match in the whole command. -/
theorem reportName?_eq_search (invocation extension : String) :
    reportName? invocation extension =
      ((search outputFlag invocation.toList).bind (·[1]?)).map fun name =>
        String.ofList name ++ "." ++ extension := by
  rw [reportName?, findSome?_outputName?]

/-- The report name of a command. It is the pattern's name, and it is read off the first line that
qualifies, between the last flag that can be used there and the last object suffix that does not end
the line; a command has none if no line qualifies. -/
theorem reportName?_rightmost (invocation extension : String) :
    (∀ report, reportName? invocation extension = some report ↔
      ∃ earlier line later name, invocation.toList.splitOn '\n' = earlier ++ line :: later ∧
        (∀ l ∈ earlier, ¬ Qualifies l) ∧ Names line name ∧
        report = String.ofList name ++ "." ++ extension) ∧
    (reportName? invocation extension = none ↔
      ∀ line ∈ invocation.toList.splitOn '\n', ¬ Qualifies line) ∧
    reportName? invocation extension =
      ((search outputFlag invocation.toList).bind (·[1]?)).map fun name =>
        String.ofList name ++ "." ++ extension := by
  refine ⟨?_, ?_, reportName?_eq_search invocation extension⟩
  · intro report
    simp only [reportName?, Option.map_eq_some_iff, List.findSome?_eq_some_iff,
      outputName?_eq_some_iff, outputName?_eq_none_iff]
    constructor
    · rintro ⟨name, ⟨earlier, line, later, split, names, idle⟩, rfl⟩
      exact ⟨earlier, line, later, name, split, idle, names, rfl⟩
    · rintro ⟨earlier, line, later, name, split, idle, names, rfl⟩
      exact ⟨name, ⟨earlier, line, later, split, names, idle⟩, rfl⟩
  · simp only [reportName?, Option.map_eq_none_iff, List.findSome?_eq_none_iff,
      outputName?_eq_none_iff]

/-- The last flag cannot be used, and the name runs past the first suffix. -/
example : reportName? "cc -c a.c\ncc -o x.o -o a.o -MF a.o.d -c a.c -o b.o" "su" =
    some "a.o -MF a.su" := by
  decide

end StackUsage.Manifest

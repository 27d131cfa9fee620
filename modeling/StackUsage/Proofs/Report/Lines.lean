import StackUsage.Proofs.Report.Grammar
import StackUsage.Report

/-! What one line of a report means for the others. The rows of a text are the pieces between its
newlines without the carriage returns at their ends, and the records of a report are those of its
rows, row by row. So two texts one after the other have the records of both, rows that are blank or
refused can be put in or left out, and the endings of lines may have carriage returns. Each row that
is refused and not blank has one warning with its number. -/

namespace StackUsage.Report

/-! ### Rows -/

/-- The piece without the carriage returns at its end. -/
def bare (piece : List Char) : List Char := Text.dropWhileEnd (· = '\r') piece

/-- The lines of a text, as they are read. -/
def rows (text : List Char) : List (List Char) := (text.splitOn '\n').map bare

theorem bare_cons (c : Char) (piece : List Char) :
    bare (c :: piece) = if bare piece = [] ∧ c = '\r' then [] else c :: bare piece := by
  simp only [bare, Text.dropWhileEnd, List.reverse_cons, List.dropWhile_append,
    List.isEmpty_iff, List.reverse_eq_nil_iff]
  by_cases h : piece.reverse.dropWhile (· = '\r') = []
  · by_cases hc : c = '\r' <;> simp [h, hc]
  · simp [h]

theorem bare_congr {c : Char} {piece other : List Char} (h : bare piece = bare other) :
    bare (c :: piece) = bare (c :: other) := by
  rw [bare_cons, bare_cons, h]

theorem bare_dropReturn (piece : List Char) : bare (Text.dropReturn piece) = bare piece := by
  fun_induction Text.dropReturn piece with
  | case1 => rfl
  | case2 => decide
  | case3 c rest _ ih => exact bare_congr ih

/-- A row with its number, unless it is blank. -/
def numbered : List Char × Nat → Option (Nat × Except LineFault Usage)
  | (row, number) => if row.all Text.isBlank then none else some (number, parseLine row)

theorem readLines_eq (text : List Char) :
    readLines text = ((rows text).zipIdx 1).filterMap numbered := by
  -- dropping one carriage return or an empty last line changes no row that counts
  have pieces : ∀ (ps : List (List Char)) k,
      ((Text.linesOfPieces ps).zipIdx k).filterMap (numbered ∘ Prod.map bare id) =
        (ps.zipIdx k).filterMap (numbered ∘ Prod.map bare id) := by
    intro ps k
    fun_induction Text.linesOfPieces ps generalizing k with
    | case1 => rfl
    | case2 last empty =>
      rw [List.isEmpty_iff] at empty
      subst empty
      rfl
    | case3 last _ => rfl
    | case4 piece ps _ ih =>
      rw [List.zipIdx_cons, List.zipIdx_cons, List.filterMap_cons, List.filterMap_cons, ih]
      simp [bare_dropReturn]
  rw [rows, List.zipIdx_map, List.filterMap_map, ← pieces]
  rfl

/-! ### Records of rows -/

/-- The row gives no record: it is blank or refused. -/
def Void (row : List Char) : Prop :=
  (∀ c ∈ row, Text.isBlank c = true) ∨ ∃ fault, parseLine row = .error fault

/-- A blank line is refused as well, since its qualifiers are blank. -/
theorem parseLine_blank {row : List Char} (h : ∀ c ∈ row, Text.isBlank c = true) (u : Usage) :
    parseLine row ≠ .ok u := by
  intro read
  obtain ⟨fields, -, -, listed⟩ := parseLine_eq_ok.1 read
  obtain ⟨c, hc, dark⟩ := listed.present
  have inside : c ∈ row := by
    have joined : List.intercalate ['\t'] (row.splitOn '\t') = row := List.intercalate_splitOn '\t'
    rw [← joined, fields]
    simp [hc]
  exact Bool.false_ne_true (dark.symm.trans (h c inside))

theorem void_iff {row : List Char} : Void row ↔ (parseLine row).toOption = none := by
  cases read : parseLine row with
  | error fault => simp [Void, read, Except.toOption]
  | ok u =>
    have dark : ¬ ∀ c ∈ row, Text.isBlank c = true := fun h => parseLine_blank h u read
    simp [Void, read, Except.toOption, dark]

instance (row : List Char) : Decidable (Void row) := decidable_of_iff' _ void_iff

theorem filterMap_zipIdx_fst {α β : Type} (f : α → Option β) (l : List α) (k : Nat) :
    (l.zipIdx k).filterMap (fun x => f x.1) = l.filterMap f := by
  conv_rhs => rw [← List.zipIdx_map_fst k l, List.filterMap_map]
  rfl

theorem usages_parse (text : String) :
    (parse text).usages = (rows text.toList).filterMap fun row => (parseLine row).toOption := by
  have row : ∀ x : List Char × Nat,
      (numbered x).bind usage? = (parseLine x.1).toOption := by
    rintro ⟨row, number⟩
    rw [numbered]
    split
    · next blank =>
      exact (void_iff.1 (.inl (List.all_eq_true.1 blank))).symm
    · cases parseLine row <;> rfl
  rw [parse, readLines_eq, List.filterMap_filterMap]
  simp only [row]
  exact filterMap_zipIdx_fst (fun row => (parseLine row).toOption) _ _

theorem rows_append (a b : List Char) : rows (a ++ '\n' :: b) = rows a ++ rows b := by
  rw [rows, List.splitOn_append_cons_self, List.map_append]
  rfl

theorem usages_append (a b : String) :
    (parse (a ++ "\n" ++ b)).usages = (parse a).usages ++ (parse b).usages := by
  have text : (a ++ "\n" ++ b).toList = a.toList ++ '\n' :: b.toList := by simp
  rw [usages_parse, usages_parse, usages_parse, text, rows_append, List.filterMap_append]

/-- Only the rows that give a record matter. -/
theorem usages_filter (text : String) :
    (parse text).usages =
      ((rows text.toList).filter fun row => ¬ Void row).filterMap fun row =>
        (parseLine row).toOption := by
  rw [usages_parse, List.filterMap_filter]
  refine List.filterMap_congr fun row _ => ?_
  by_cases h : Void row
  · simp [h, void_iff.1 h]
  · simp [h]

/-! ### Endings of lines -/

/-- The text with a carriage return before each newline. -/
def withReturns (text : List Char) : List Char :=
  text.flatMap fun c => if c = '\n' then ['\r', '\n'] else [c]

theorem rows_cons {c : Char} (h : c ≠ '\n') (text : List Char) :
    ∃ piece ps, text.splitOn '\n' = piece :: ps ∧
      rows (c :: text) = bare (c :: piece) :: ps.map bare := by
  obtain ⟨piece, ps, split⟩ := List.exists_cons_of_ne_nil (List.splitOn_ne_nil '\n' text)
  refine ⟨piece, ps, split, ?_⟩
  rw [rows, List.splitOn_cons_eq_if_modifyHead, split]
  simp [h]

theorem rows_withReturns (text : List Char) : rows (withReturns text) = rows text := by
  induction text with
  | nil => rfl
  | cons c text ih =>
    by_cases h : c = '\n'
    · subst h
      have ending : withReturns ('\n' :: text) = ['\r'] ++ '\n' :: withReturns text := rfl
      rw [ending, rows_append, ih]
      exact (rows_append [] text).symm
    · have same : withReturns (c :: text) = c :: withReturns text := by simp [withReturns, h]
      obtain ⟨piece, ps, split, whole⟩ := rows_cons h (withReturns text)
      obtain ⟨piece', ps', split', whole'⟩ := rows_cons h text
      rw [rows, split, rows, split', List.map_cons, List.map_cons] at ih
      obtain ⟨first, rest⟩ := List.cons.inj ih
      rw [same, whole, whole', bare_congr first, rest]

theorem parse_withReturns (text : String) :
    parse (String.ofList (withReturns text.toList)) = parse text := by
  rw [parse, parse, String.toList_ofList, readLines_eq, readLines_eq, rows_withReturns]

/-! ### Warnings -/

theorem numbered_eq_some {row : List Char} {n number : Nat} {read : Except LineFault Usage} :
    numbered (row, n) = some (number, read) ↔
      n = number ∧ (∃ c ∈ row, Text.isBlank c = false) ∧ parseLine row = read := by
  rw [numbered]
  by_cases blank : row.all Text.isBlank = true
  · have dark : ¬ ∃ c ∈ row, Text.isBlank c = false := by simpa using blank
    simp [blank, dark]
  · have dark : ∃ c ∈ row, Text.isBlank c = false := by simpa using blank
    simp [blank, dark]

/-- The lines read are the rows that are not blank, numbered from one. -/
theorem mem_readLines {text : List Char} {number : Nat} {read : Except LineFault Usage} :
    (number, read) ∈ readLines text ↔ ∃ i row, number = i + 1 ∧ (rows text)[i]? = some row ∧
      (∃ c ∈ row, Text.isBlank c = false) ∧ parseLine row = read := by
  simp only [readLines_eq, List.mem_filterMap, Prod.exists, numbered_eq_some]
  constructor
  · rintro ⟨row, n, place, rfl, dark, said⟩
    obtain ⟨started, here⟩ := List.mk_mem_zipIdx_iff_le_and_getElem?_sub.1 place
    exact ⟨n - 1, row, by omega, here, dark, said⟩
  · rintro ⟨i, row, rfl, here, dark, said⟩
    refine ⟨row, i + 1, ?_, rfl, dark, said⟩
    exact List.mk_mem_zipIdx_iff_le_and_getElem?_sub.2 ⟨by omega, by simpa using here⟩

theorem pairwise_readLines (text : List Char) :
    (readLines text).Pairwise fun x y => x.1 < y.1 := by
  have increasing : ((rows text).zipIdx 1).Pairwise fun x y => x.2 < y.2 := by
    rw [← List.pairwise_map (f := Prod.snd) (R := (· < ·)), List.zipIdx_map_snd]
    exact List.pairwise_lt_range'
  rw [readLines_eq]
  refine increasing.filterMap numbered ?_
  rintro ⟨row, n⟩ ⟨row', n'⟩ before ⟨number, read⟩ first ⟨number', read'⟩ second
  rw [← (numbered_eq_some.1 first).1, ← (numbered_eq_some.1 second).1]
  exact before

def fault? : Nat × Except LineFault Usage → Option (Nat × LineFault)
  | (number, .error fault) => some (number, fault)
  | (_, .ok _) => none

/-- The lines at fault in a text, with their numbers. -/
def faults (text : List Char) : List (Nat × LineFault) := (readLines text).filterMap fault?

theorem warnings_parse (text : String) :
    (parse text).warnings = (faults text.toList).map fun (number, fault) =>
      .droppedLine number fault := by
  rw [parse, faults, List.map_filterMap]
  refine List.filterMap_congr fun x _ => ?_
  rcases x with ⟨number, fault | u⟩ <;> rfl

theorem mem_faults {text : List Char} {number : Nat} {fault : LineFault} :
    (number, fault) ∈ faults text ↔ (number, .error fault) ∈ readLines text := by
  rw [faults, List.mem_filterMap]
  constructor
  · rintro ⟨⟨n, other | u⟩, hx, same⟩
    · cases same
      exact hx
    · cases same
  · exact fun hx => ⟨_, hx, rfl⟩

theorem pairwise_faults (text : List Char) : (faults text).Pairwise fun x y => x.1 < y.1 := by
  refine (pairwise_readLines text).filterMap fault? ?_
  rintro ⟨n, fault | u⟩ ⟨n', fault' | u'⟩ before _ first _ second <;> cases first <;> cases second
  exact before

/-- A bad line harms only itself. Of two texts with a newline between them, the first and then
the second has its records; texts whose rows are the same apart from blank and refused ones have the
same records in the same order; carriage returns at the ends of lines change nothing at all. The
warnings are one for each row that is refused and not blank, in the order of the text, with its
number from one and its fault. -/
theorem bad_line_alone :
    (∀ a b : String, (parse (a ++ "\n" ++ b)).usages = (parse a).usages ++ (parse b).usages) ∧
    (∀ a b : String, (rows a.toList).filter (fun row => ¬ Void row) =
        (rows b.toList).filter (fun row => ¬ Void row) →
      (parse a).usages = (parse b).usages) ∧
    (∀ text : String, parse (String.ofList (withReturns text.toList)) = parse text) ∧
    ∀ text : String, ∃ faults : List (Nat × LineFault),
      (parse text).warnings = faults.map (fun (number, fault) => .droppedLine number fault) ∧
      (faults.Pairwise fun x y => x.1 < y.1) ∧
      ∀ number fault, (number, fault) ∈ faults ↔
        ∃ i row, number = i + 1 ∧ (rows text.toList)[i]? = some row ∧
          (∃ c ∈ row, Text.isBlank c = false) ∧ parseLine row = .error fault := by
  refine ⟨usages_append, fun a b same => ?_, parse_withReturns, fun text => ?_⟩
  · rw [usages_filter, usages_filter, same]
  · exact ⟨faults text.toList, warnings_parse text, pairwise_faults _,
      fun _ _ => mem_faults.trans mem_readLines⟩

/-! ### A report with blank and bad lines -/

def tidy : String := "m.c:1:5:f\t16\tstatic\nm.c:2:5:g\t8\tdynamic"

/-- The same with a blank line, two that are refused, and carriage returns. -/
def untidy : String :=
  "m.c:1:5:f\t16\tstatic\r\n \r\nm.c\tg\nm.c:2:5:g\t8\tdynamic\r\r\nm.c:3:5:h\t8\tdyn\r"

theorem bad_line_alone_untidy :
    (rows untidy.toList).filter (fun row => ¬ Void row) =
        (rows tidy.toList).filter (fun row => ¬ Void row) ∧
      (parse untidy).usages = (parse tidy).usages ∧ (parse tidy).usages.length = 2 := by
  have same : (rows untidy.toList).filter (fun row => ¬ Void row) =
      (rows tidy.toList).filter (fun row => ¬ Void row) := by decide +kernel
  exact ⟨same, bad_line_alone.2.1 untidy tidy same, by decide +kernel⟩

end StackUsage.Report

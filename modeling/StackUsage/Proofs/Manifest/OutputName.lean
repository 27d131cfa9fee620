import Mathlib.Data.List.Infix
import StackUsage.Manifest.OutputName

/-! Which name a compile command is read to give its object file. It is the one behind the last
output flag if no object suffix with something behind it comes after that. The name runs up to the
last such suffix, over the bounds of arguments, and an argument that merely ends like the flag is
taken for it. -/

namespace StackUsage.Manifest

/-! ### The last split -/

section Split

variable {mark : List Char} {accept : List Char → List Char → Bool}

theorem splitLast?_eq_none {before s : List Char}
    (h : ∀ x z, s = x ++ mark ++ z → accept (before.reverse ++ x) z = false) :
    splitLast? mark accept before s = none := by
  induction s generalizing before with
  | nil =>
    rw [splitLast?, if_neg]
    rw [Bool.and_eq_true, List.isPrefixOf_iff_prefix]
    rintro ⟨hm, ha⟩
    have := h [] [] (by simp [List.prefix_nil.1 hm])
    rw [List.append_nil, ha] at this
    cases this
  | cons c rest ih =>
    have later : splitLast? mark accept (c :: before) rest = none := by
      refine ih fun x z hs => ?_
      have := h (c :: x) z (by rw [hs]; rfl)
      simpa using this
    rw [splitLast?, later]
    dsimp only
    rw [if_neg]
    rw [Bool.and_eq_true, List.isPrefixOf_iff_prefix]
    rintro ⟨⟨z, hz⟩, ha⟩
    have := h [] z hz.symm
    rw [← hz, List.drop_left] at ha
    rw [List.append_nil, ha] at this
    cases this

/-- The split at the last accepted occurrence is the one that is found. -/
theorem splitLast?_eq_some {before s x z : List Char} (hs : s = x ++ mark ++ z)
    (accepted : accept (before.reverse ++ x) z = true)
    (last : ∀ y w, s = y ++ mark ++ w → x.length < y.length →
      accept (before.reverse ++ y) w = false) :
    splitLast? mark accept before s = some (before.reverse ++ x, z) := by
  induction s generalizing before x with
  | nil =>
    obtain ⟨rfl, rfl, rfl⟩ : x = [] ∧ mark = [] ∧ z = [] := by simpa using hs.symm
    rw [splitLast?, if_pos]
    · simp
    · simpa using accepted
  | cons c rest ih =>
    cases x with
    | nil =>
      have later : splitLast? mark accept (c :: before) rest = none := by
        refine splitLast?_eq_none fun y w hr => ?_
        have := last (c :: y) w (by rw [hr]; rfl) (Nat.zero_lt_succ _)
        simpa using this
      have here : c :: rest = mark ++ z := hs
      rw [splitLast?, later, here]
      dsimp only
      rw [if_pos, List.drop_left, List.append_nil]
      rw [Bool.and_eq_true, List.isPrefixOf_iff_prefix, List.drop_left]
      exact ⟨List.prefix_append _ _, by simpa using accepted⟩
    | cons first x =>
      obtain ⟨rfl, hr⟩ := List.cons.inj hs
      have first : accept ((c :: before).reverse ++ x) z = true := by simpa using accepted
      have later := ih hr first fun y w hy hl => by
        have := last (c :: y) w (by rw [hy]; rfl) (Nat.succ_lt_succ hl)
        simpa using this
      rw [splitLast?, later]
      simp

end Split

/-! ### Marks in a line -/

/-- There is an occurrence of the mark with something behind it. -/
def Marked (mark s : List Char) : Prop := ∃ x z, s = x ++ mark ++ z ∧ z ≠ []

theorem marked_iff_tails {mark s : List Char} :
    Marked mark s ↔ ∃ t ∈ s.tails, mark <+: t ∧ t ≠ mark := by
  constructor
  · rintro ⟨x, z, rfl, hz⟩
    refine ⟨mark ++ z, ?_, List.prefix_append _ _, by simpa using hz⟩
    rw [List.mem_tails, List.append_assoc]
    exact List.suffix_append _ _
  · rintro ⟨t, ht, ⟨z, rfl⟩, hz⟩
    obtain ⟨x, rfl⟩ := (List.mem_tails _ _).1 ht
    exact ⟨x, z, by rw [List.append_assoc], by simpa using hz⟩

instance (mark s : List Char) : Decidable (Marked mark s) := decidable_of_iff' _ marked_iff_tails

theorem Marked.of_cons {m c : Char} {mark s : List Char} (hc : c ≠ m)
    (h : Marked (m :: mark) (c :: s)) : Marked (m :: mark) s := by
  obtain ⟨x, z, hs, hz⟩ := h
  cases x with
  | nil => exact absurd (List.cons.inj hs).1 hc
  | cons first x => exact ⟨x, z, (List.cons.inj hs).2, hz⟩

theorem Marked.of_suffix {mark s t : List Char} (ht : t <:+ s) (h : Marked mark t) :
    Marked mark s := by
  obtain ⟨before, rfl⟩ := ht
  obtain ⟨x, z, rfl, hz⟩ := h
  exact ⟨before ++ x, z, by simp only [List.append_assoc], hz⟩

/-- Of two spaces on one line the later one stands behind the earlier. -/
theorem behind_of_longer {p q s w : List Char} (h : p ++ ' ' :: s = q ++ ' ' :: w)
    (longer : p.length < q.length) : ∃ t, q = p ++ ' ' :: t ∧ s = t ++ ' ' :: w := by
  obtain ⟨t, rfl, ht⟩ | ⟨t, rfl, -⟩ := List.append_eq_append_iff.1 h
  · cases t with
    | nil => simp at longer
    | cons c t =>
      obtain rfl := (List.cons.inj ht).1
      exact ⟨t, rfl, (List.cons.inj ht).2⟩
  · rw [List.length_append] at longer
    omega

theorem suffix_of_suffix_append_space {t p u : List Char} (plain : ' ' ∉ t)
    (h : t <:+ p ++ ' ' :: u) : t <:+ u := by
  rcases List.suffix_or_suffix_of_suffix h (List.suffix_append p _) with inside | around
  · rcases List.suffix_cons_iff.1 inside with rfl | inside
    · exact absurd List.mem_cons_self plain
    · exact inside
  · exact absurd (around.subset List.mem_cons_self) plain

/-- A flag behind a space stands entirely behind it. -/
theorem flag_behind {p s u w : List Char} (h : p ++ ' ' :: s = (u ++ "-o".toList) ++ ' ' :: w)
    (longer : p.length < (u ++ "-o".toList).length) : ∃ v, s = v ++ "-o ".toList ++ w := by
  obtain ⟨t, hu, rfl⟩ := behind_of_longer h longer
  obtain ⟨v, rfl⟩ : "-o".toList <:+ t :=
    suffix_of_suffix_append_space (by decide) (hu ▸ List.suffix_append u _)
  exact ⟨v, by simp⟩

/-! ### Object names -/

theorem objectName?_eq_none {s : List Char} (h : ¬ Marked ".o".toList s.tail) :
    objectName? s = none := by
  rw [objectName?, splitLast?_eq_none, Option.map_none]
  intro x z hs
  cases x with
  | nil => rfl
  | cons c x =>
    have : z = [] := by
      by_contra hz
      exact h ⟨x, z, by rw [hs]; rfl, hz⟩
    simp [this]

/-- The name runs up to the last object suffix with something behind it. Two such suffixes never
overlap, so the last one is the one behind which there is no other. -/
theorem objectName?_eq_some {name z : List Char} (hn : name ≠ []) (hz : z ≠ [])
    (last : ¬ Marked ".o".toList z) : objectName? (name ++ ".o".toList ++ z) = some name := by
  rw [objectName?, splitLast?_eq_some rfl, Option.map_some]
  · rfl
  · simp [hn, hz]
  · intro y w hs longer
    have : w = [] := by
      by_contra hw
      obtain ⟨t, rfl, ht⟩ | ⟨t, rfl, -⟩ := List.append_eq_append_iff.1 (by simpa using hs)
      · cases t with
        | nil => simp at longer
        | cons c t =>
          have inside : Marked ".o".toList ('o' :: z) :=
            ⟨t, w, by simpa using (List.cons.inj ht).2, hw⟩
          exact last (inside.of_cons (by decide))
      · rw [List.length_append] at longer
        omega
    simp [this]

/-- A flag behind which stands no object suffix but the last, and that one at once, is not
completed. -/
theorem objectName?_behind_flag {x z u w : List Char} (last : ¬ Marked ".o".toList z)
    (flags : ¬ Marked "-o ".toList x)
    (h : x ++ ".o".toList ++ z = u ++ "-o ".toList ++ w) : objectName? w = none := by
  have short : w <:+ ".o".toList ++ z := by
    rw [List.append_assoc] at h
    obtain ⟨t, -, ht⟩ | ⟨t, hx, hw⟩ := List.append_eq_append_iff.1 h
    · exact ⟨t, ht.symm⟩
    · have : t = [] := by
        by_contra ne
        exact flags ⟨u, t, hx, ne⟩
      rw [hw, this]
      exact List.suffix_rfl
  refine objectName?_eq_none fun hw => last ?_
  have tail : w.tail <:+ 'o' :: z := by
    rcases List.suffix_cons_iff.1 short with rfl | inside
    · exact List.suffix_rfl
    · exact (List.tail_suffix w).trans inside
  exact (hw.of_suffix tail).of_cons (by decide)

/-- The name found stands between the last object suffix with something behind it and the flag
before that, if there is anything between the two. -/
theorem outputName?_eq_some {before name z : List Char} (hb : before ≠ []) (hn : name ≠ [])
    (hz : z ≠ []) (last : ¬ Marked ".o".toList z) (flags : ¬ Marked "-o ".toList name) :
    outputName? (before ++ "-o ".toList ++ (name ++ ".o".toList ++ z)) = some name := by
  have complete := objectName?_eq_some hn hz last
  rw [outputName?, splitLast?_eq_some rfl]
  · exact complete
  · simp only [List.reverse_nil, List.nil_append, complete, Option.isSome_some, Bool.and_true]
    simpa using hb
  · intro y w hs longer
    have spaces : (before ++ "-o".toList) ++ ' ' :: (name ++ ".o".toList ++ z) =
        (y ++ "-o".toList) ++ ' ' :: w := by simpa using hs
    obtain ⟨u, hu⟩ := flag_behind spaces (by simpa using longer)
    simp [objectName?_behind_flag last flags hu]

/-! ### Command lines -/

theorem not_mem_intercalate {c : Char} (hc : c ≠ ' ') {args : List String}
    (plain : ∀ a ∈ args, c ∉ a.toList) : c ∉ (" ".intercalate args).toList := by
  induction args with
  | nil => simp
  | cons a args ih =>
    by_cases ha : args = []
    · simpa [ha] using plain
    · rw [String.intercalate_cons_of_ne_nil ha]
      simp only [String.toList_append, List.mem_append, not_or]
      exact ⟨⟨plain a List.mem_cons_self, by simpa using hc⟩,
        ih fun b hb => plain b (List.mem_cons_of_mem _ hb)⟩

/-- A command whose arguments stand on one line with single spaces between them and name its
object file: the last output flag has an argument before it, the object file's behind it, and at
least one more behind that. -/
structure ObjectCommand where
  before : List String
  name : String
  more : List String
  started : before ≠ []
  named : name ≠ ""
  continued : more ≠ []
  plain : ∀ a ∈ before ++ "-o" :: (name ++ ".o") :: more, ' ' ∉ a.toList ∧ '\n' ∉ a.toList
  last : "-o" ∉ more

namespace ObjectCommand

variable (c : ObjectCommand)

def line : String := " ".intercalate (c.before ++ "-o" :: (c.name ++ ".o") :: c.more)

/-- What stands behind the object file. -/
def behind : List Char := (" ".intercalate c.more).toList

/-- What stands before the flag. -/
def ahead : List Char := (" ".intercalate c.before).toList ++ [' ']

theorem toList_line : c.line.toList =
    c.ahead ++ "-o ".toList ++ (c.name.toList ++ ".o".toList ++ ' ' :: c.behind) := by
  rw [line, String.intercalate_append_of_ne_nil c.started (List.cons_ne_nil _ _),
    String.intercalate_cons_of_ne_nil (List.cons_ne_nil _ _),
    String.intercalate_cons_of_ne_nil c.continued]
  simp [ahead, behind]

theorem reportName?_of_outputName? {name : List Char} (extension : String)
    (h : outputName? c.line.toList = some name) :
    reportName? c.line extension = some (String.ofList name ++ "." ++ extension) := by
  have single : c.line.toList.splitOn '\n' = [c.line.toList] :=
    List.splitOn_eq_singleton (not_mem_intercalate (by decide) fun a ha => (c.plain a ha).2)
  rw [reportName?, single, List.findSome?_singleton, h, Option.map_some]

theorem space_not_mem_name : ' ' ∉ c.name.toList := by
  have := (c.plain (c.name ++ ".o") (by simp)).1
  rw [String.toList_append, List.mem_append, not_or] at this
  exact this.1

/-- The text of the object file's argument and of what follows it. -/
theorem toList_through (x : List Char) : c.name.toList ++ ".o".toList ++ ' ' :: x =
    (c.name ++ ".o " ++ String.ofList x).toList := by simp

/-- Nothing that looks like a flag starts inside the object file or right behind it. -/
theorem not_marked_through {x : List Char} (h : ¬ Marked "-o ".toList x) :
    ¬ Marked "-o ".toList (c.name.toList ++ ".o".toList ++ ' ' :: x) := by
  rintro ⟨u, v, hs, hv⟩
  have spaces : (c.name.toList ++ ".o".toList) ++ ' ' :: x = (u ++ "-o".toList) ++ ' ' :: v := by
    simpa using hs
  rcases Nat.lt_trichotomy (c.name.toList ++ ".o".toList).length (u ++ "-o".toList).length with
    longer | same | shorter
  · obtain ⟨p, rfl⟩ := flag_behind spaces longer
    exact h ⟨p, v, rfl, hv⟩
  · have object : c.name.toList ++ ".o".toList = u ++ "-o".toList := (List.append_inj spaces same).1
    exact absurd (List.append_inj_right' object rfl) (by decide)
  · obtain ⟨t, object, -⟩ := behind_of_longer spaces.symm shorter
    have : ' ' ∈ c.name.toList ++ ".o".toList := object ▸ by simp
    exact absurd this (by simpa using c.space_not_mem_name)

theorem not_marked_name : ¬ Marked "-o ".toList c.name.toList := by
  rintro ⟨u, v, hs, -⟩
  exact c.space_not_mem_name (hs ▸ by simp)

/-- The name read off for the object file, in every such command. It is the object file's own if
no object suffix with something behind it follows. Otherwise it runs on to the last of these, and
starts behind the last argument on the way that ends like the flag, if there is one. -/
theorem reportName?_line (extension : String) :
    (¬ Marked ".o".toList c.behind →
      reportName? c.line extension = some (c.name ++ "." ++ extension)) ∧
    ∀ x z, c.behind = x ++ ".o".toList ++ z → z ≠ [] → ¬ Marked ".o".toList z →
      (¬ Marked "-o ".toList x →
        reportName? c.line extension =
          some (c.name ++ ".o " ++ String.ofList x ++ "." ++ extension)) ∧
      ∀ u v, x = u ++ "-o ".toList ++ v → v ≠ [] → ¬ Marked "-o ".toList v →
        reportName? c.line extension = some (String.ofList v ++ "." ++ extension) := by
  have started : c.ahead ≠ [] := by simp [ahead]
  have named : c.name.toList ≠ [] := by simpa using c.named
  refine ⟨fun unmarked => ?_, fun x z hx hz last => ⟨fun flags => ?_, fun u v hu hv flags => ?_⟩⟩
  · have found : outputName? c.line.toList = some c.name.toList := by
      rw [toList_line]
      exact outputName?_eq_some started named (List.cons_ne_nil _ _)
        (fun h => unmarked (h.of_cons (by decide))) c.not_marked_name
    rw [c.reportName?_of_outputName? extension found, String.ofList_toList]
  · have through : c.line.toList = c.ahead ++ "-o ".toList ++
        ((c.name.toList ++ ".o".toList ++ ' ' :: x) ++ ".o".toList ++ z) := by
      rw [toList_line, hx]
      simp
    have found : outputName? c.line.toList = some (c.name.toList ++ ".o".toList ++ ' ' :: x) := by
      rw [through]
      exact outputName?_eq_some started (by simp) hz last (c.not_marked_through flags)
    rw [c.reportName?_of_outputName? extension found, toList_through, String.ofList_toList]
  · -- what stands before the later flag takes the place of what stands before the true one
    have through : c.line.toList = (c.ahead ++ "-o ".toList ++
        (c.name.toList ++ ".o".toList ++ ' ' :: u)) ++ "-o ".toList ++ (v ++ ".o".toList ++ z) := by
      rw [toList_line, hx, hu]
      simp
    have found : outputName? c.line.toList = some v := by
      rw [through]
      exact outputName?_eq_some (by simp) hv hz last flags
    exact c.reportName?_of_outputName? extension found

/-- The command `cc -o a.o` with more arguments. -/
def compile (more : List String) (continued : more ≠ [])
    (plain : ∀ a ∈ more, ' ' ∉ a.toList ∧ '\n' ∉ a.toList) (last : "-o" ∉ more) :
    ObjectCommand where
  before := ["cc"]
  name := "a"
  more := more
  started := by decide
  named := by decide
  continued := continued
  plain := by
    simp only [List.cons_append, List.nil_append, List.forall_mem_cons]
    exact ⟨by decide, by decide, by decide, plain⟩
  last := last

def source : ObjectCommand :=
  compile ["-c", "a.c"] (by decide) (by decide) (by decide)

/-- A dependency file is named behind the object file, and for it. -/
def dependency : ObjectCommand :=
  compile ["-MF", "a.o.d", "-c", "a.c"] (by decide) (by decide) (by decide)

/-- One argument behind the object file ends like the flag, and the next is an object file. -/
def lookalike : ObjectCommand :=
  compile ["x-o", "b.o", "a.c"] (by decide) (by decide) (by decide)

theorem reportName?_line_compile :
    reportName? source.line "su" = some "a.su" ∧
      reportName? dependency.line "su" = some "a.o -MF a.su" ∧
      reportName? lookalike.line "su" = some "b.su" := by
  refine ⟨?_, ?_, ?_⟩
  · exact (source.reportName?_line "su").1 (by decide)
  · exact ((dependency.reportName?_line "su").2 "-MF a".toList ".d -c a.c".toList
      (by decide) (by decide) (by decide)).1 (by decide)
  · exact ((lookalike.reportName?_line "su").2 "x-o b".toList " a.c".toList
      (by decide) (by decide) (by decide)).2 "x".toList "b".toList
      (by decide) (by decide) (by decide)

/-- The dependency file's suffix hides the object file's. -/
theorem dependency_misnamed : dependency.line = "cc -o a.o -MF a.o.d -c a.c" ∧
    reportName? dependency.line "su" ≠ some (dependency.name ++ "." ++ "su") := by
  decide

end ObjectCommand

end StackUsage.Manifest

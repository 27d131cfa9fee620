import Mathlib.Data.List.Nodup
import Mathlib.Data.List.Perm.Subperm
import StackUsage.Proofs.Annotation.RealPaths
import StackUsage.Proofs.Path

/-! How often a document is given a record. The records for its real path and those for its file
name are looked up one after the other, so a record is given twice if it answers both times. It can
do so only where the real path is nothing but a file name, which no path of the tree is: such a
document is shown by its bare name and not found. A record counts by its place in the index, so that
equal records at two places may both be given. -/

namespace StackUsage

/-! ### Bare paths -/

namespace Path

/-- The path is nothing but a file name. -/
def IsBare (p : Path) : Prop := p.fileName = some p.spelling

instance (p : Path) : Decidable p.IsBare := inferInstanceAs (Decidable (p.fileName = _))

/-- A bare path has no slash, and says neither nothing nor a dot nor a step up. -/
theorem isBare_iff {p : Path} :
    p.IsBare ↔ p.chars ≠ [] ∧ '/' ∉ p.chars ∧ p.chars ≠ ['.'] ∧ p.chars ≠ ['.', '.'] := by
  constructor
  · intro bare
    obtain ⟨mem, ne, dot, up⟩ :=
      mem_pieces_of_name (List.mem_of_getLast? (fileName_eq_some_iff.1 bare))
    exact ⟨ne, Text.not_mem_of_mem_splitOn mem, dot, up⟩
  · rintro ⟨ne, slash, dot, up⟩
    have one : p.pieces = [p.chars] := List.splitOn_eq_singleton slash
    refine fileName_eq_some_iff.2 ?_
    rw [components_eq_said ne, one]
    simp only [said, componentOfPiece, ne, dot, up, or_self, if_false, List.filterMap_nil,
      List.append_nil, Option.toList_some, List.getLast?_singleton]
    rfl

example : IsBare ⟨"m.c"⟩ ∧ ¬ IsBare ⟨"./m.c"⟩ ∧ ¬ IsBare ⟨"/m.c"⟩ := by decide +kernel

/-- The path of a location starts at the root. -/
theorem not_isBare_ofLocation (loc : Location) : ¬ (ofLocation loc).IsBare := by
  rw [isBare_iff, ofLocation, chars_ofChars]
  rintro ⟨-, slash, -⟩
  exact slash List.mem_cons_self

end Path

theorem Tree.not_isBare_of_canonicalize {t : Tree} {p real : Path}
    (h : t.canonicalize p = .ok real) : ¬ real.IsBare := by
  unfold canonicalize at h
  cases he : t.entry .real p with
  | error fault => simp [he, Except.map] at h
  | ok found =>
    rw [he] at h
    cases h
    exact Path.not_isBare_ofLocation found.1

namespace Annotation

/-! ### Places in the index -/

theorem map_some_filter {α : Type} (p : α → Bool) (l : List α) :
    (l.filter p).map some = (l.findIdxs p).map (l[·]?) := by
  refine List.ext_getElem (by simp [List.countP_eq_length_filter]) fun n hn hn' => ?_
  rw [List.getElem_map, List.getElem_map]
  rw [List.length_map] at hn
  rw [List.getElem_filter_eq_getElem_getElem_findIdxs hn, List.getElem?_eq_getElem]

theorem disjoint_findIdxs {α : Type} {p q : α → Bool} {l : List α} :
    (l.findIdxs p).Disjoint (l.findIdxs q) ↔ ∀ x ∈ l, p x = true → q x = false := by
  simp only [List.Disjoint, List.mem_findIdxs_iff_exists_getElem_pos]
  constructor
  · intro apart x hx hp
    obtain ⟨n, hn, rfl⟩ := List.getElem_of_mem hx
    exact Bool.eq_false_iff.2 fun hq => apart ⟨hn, hp⟩ ⟨hn, hq⟩
  · rintro apart n ⟨hn, hp⟩ ⟨_, hq⟩
    exact Bool.false_ne_true ((apart _ (List.getElem_mem hn) hp).symm.trans hq)

/-- The places in the index of the records that a document is given, in the order in which it is
given them. -/
def places (index : Index) (real : Path) (doc : Document) : List Nat :=
  index.usages.findIdxs (·.declaredPath = real.spelling) ++
    match real.fileName with
    | none => []
    | some name => index.usages.findIdxs fun u => u.declaredPath = name && fits u doc

variable {index : Index} {real : Path} {doc : Document}

theorem usagesFor_places :
    (usagesFor index real doc).map some = (places index real doc).map (index.usages[·]?) := by
  rw [usagesFor, places, List.map_append, List.map_append, Index.query, map_some_filter]
  congr 1
  cases real.fileName with
  | none => rfl
  | some name =>
    dsimp only
    rw [Index.query, List.filter_filter, ← map_some_filter]
    simp only [Bool.and_comm]

theorem length_usagesFor : (usagesFor index real doc).length = (places index real doc).length := by
  rw [← List.length_map some, usagesFor_places, List.length_map]

/-- A record is given twice if it is declared for a bare path and fits. -/
theorem nodup_places_iff :
    (places index real doc).Nodup ↔
      ∀ u ∈ index.usages, u.declaredPath = real.spelling → real.IsBare → fits u doc = false := by
  unfold places Path.IsBare
  cases real.fileName with
  | none => simp
  | some name =>
    simp only [List.nodup_append', List.nodup_findIdxs, true_and, disjoint_findIdxs,
      decide_eq_true_eq, Bool.and_eq_false_iff, decide_eq_false_iff_not, Option.some.injEq]
    refine forall₃_congr fun u _ hu => ?_
    rw [hu, eq_comm (a := name), imp_iff_not_or]

theorem mem_places {n : Nat} (h : n ∈ places index real doc) :
    n ∈ index.usages.findIdxs fun u =>
      u.declaredPath = real.spelling || real.fileName = some u.declaredPath := by
  have wider : ∀ {p q : Usage → Bool}, (∀ u, p u = true → q u = true) →
      n ∈ index.usages.findIdxs p → n ∈ index.usages.findIdxs q := by
    intro p q hpq hn
    obtain ⟨hl, hp⟩ := List.mem_findIdxs_iff_exists_getElem_pos.1 hn
    exact List.mem_findIdxs_iff_exists_getElem_pos.2 ⟨hl, hpq _ hp⟩
  rcases List.mem_append.1 h with whole | bare
  · exact wider (fun u hu => by simp_all) whole
  · cases hf : real.fileName with
    | none => simp [hf] at bare
    | some name =>
      rw [hf] at bare
      exact wider (fun u hu => by simp_all) bare

/-- Given once each, the records are no more than those declared for the path or its name. -/
theorem length_decorations_le (once : (places index real doc).Nodup) :
    (decorations (usagesFor index real doc) doc).length ≤
      index.usages.countP fun u =>
        u.declaredPath = real.spelling || real.fileName = some u.declaredPath := by
  calc (decorations (usagesFor index real doc) doc).length
      ≤ (usagesFor index real doc).length := List.length_filterMap_le _ _
    _ = (places index real doc).length := length_usagesFor
    _ ≤ (index.usages.findIdxs _).length :=
        (List.subperm_of_subset once fun _ hn => mem_places hn).length_le
    _ = _ := List.length_findIdxs

theorem line_lt_of_mem_decorations {usages : List Usage} {dec : Decoration}
    (h : dec ∈ decorations usages doc) : dec.line < doc.lines.length := by
  obtain ⟨u, -, -, there, rfl⟩ := mem_decorations.1 h
  simpa [Document.line?] using there

/-- How the records of an index are listed for a document: they stand at certain places of the
index, and a place comes twice just if its record is declared for the path, the path is nothing but
a file name, and the record fits the document. -/
structure Listing (index : Index) (real : Path) (doc : Document) : Prop where
  stand : (usagesFor index real doc).map some = (places index real doc).map (index.usages[·]?)
  once : (places index real doc).Nodup ↔
    ∀ u ∈ index.usages, u.declaredPath = real.spelling → real.IsBare → fits u doc = false
  bare : real.IsBare ↔ real.chars ≠ [] ∧ '/' ∉ real.chars ∧ real.chars ≠ ['.'] ∧
    real.chars ≠ ['.', '.']
  rooted : ∀ (t : Tree) p, t.canonicalize p = .ok real → ¬ real.IsBare
  few : (places index real doc).Nodup →
    (decorations (usagesFor index real doc) doc).length ≤
      index.usages.countP fun u =>
        u.declaredPath = real.spelling || real.fileName = some u.declaredPath
  line_lt : ∀ dec ∈ decorations (usagesFor index real doc) doc, dec.line < doc.lines.length

/-- A document is given each record of the index once, unless its path is a bare name. No real path
of a tree is a bare one. If no place comes twice, there are no more decorations than records
declared for the path or its file name. Each decoration is on a line of the document. -/
theorem listed_once_iff (index : Index) (real : Path) (doc : Document) :
    Listing index real doc where
  stand := usagesFor_places
  once := nodup_places_iff
  bare := Path.isBare_iff
  rooted _ _ := Tree.not_isBare_of_canonicalize
  few := length_decorations_le
  line_lt _ := line_lt_of_mem_decorations

/-! ### A document that is not on disk -/

/-- One record for a file that was not found, so that its bare name was kept. -/
def unplaced : Index := Index.empty.apply "m.c" [⟨"m.c", 1, 5, "f", 16, ⟨true, false, false⟩⟩]

/-- A line that mentions the function. -/
def sketch : List String := ["int f;"]

theorem listed_once_iff_rooted : (places unplaced ⟨"/w/m.c"⟩ ⟨⟨"/w/m.c"⟩, sketch⟩).Nodup ∧
    (decorations (usagesFor unplaced ⟨"/w/m.c"⟩ ⟨⟨"/w/m.c"⟩, sketch⟩)
      ⟨⟨"/w/m.c"⟩, sketch⟩).length ≤ 1 := by
  have law := listed_once_iff unplaced ⟨"/w/m.c"⟩ ⟨⟨"/w/m.c"⟩, sketch⟩
  have rooted : ¬ (⟨"/w/m.c"⟩ : Path).IsBare := fun hb => (law.bare.1 hb).2.1 (by decide)
  have nodup := law.once.2 fun _ _ _ hb => absurd hb rooted
  exact ⟨nodup, (law.few nodup).trans (by decide +kernel)⟩

/-- A document that is shown by its bare name and not on disk is sent the one record of the index
twice. -/
theorem bare_listed_twice :
    unplaced.usages.length = 1 ∧ ¬ (places unplaced ⟨"m.c"⟩ ⟨⟨"m.c"⟩, sketch⟩).Nodup ∧
      publish (.still ⟨[['w']], []⟩) .default unplaced .all [⟨⟨"m.c"⟩, sketch⟩] =
        [(⟨"m.c"⟩, [⟨0, "f", "16 bytes"⟩, ⟨0, "f", "16 bytes"⟩])] := by
  decide +kernel

end Annotation

end StackUsage

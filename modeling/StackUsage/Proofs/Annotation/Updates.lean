import Mathlib.Data.String.Basic
import StackUsage.Proofs.Annotation
import StackUsage.Proofs.Index.History

/-! What an update of the index says it touched, and what it leaves alone. The affected paths are
those that a record of the replaced entry or of the new one is declared for, each once and in order.
A document whose real path and whose file name are both outside them has the same records as before,
in the same order, although the entry has moved to the end. -/

namespace StackUsage

theorem nodup_eraseDups : ∀ names : List String, names.eraseDups.Nodup
  | [] => .nil
  | name :: rest => by
    rw [List.eraseDups_cons, List.nodup_cons]
    exact ⟨by simp [List.mem_eraseDups], nodup_eraseDups _⟩
termination_by names => names.length
decreasing_by exact Nat.lt_succ_of_le (List.length_filter_le _ _)

theorem nodup_sortedSet (names : List String) : (sortedSet names).Nodup :=
  (List.mergeSort_perm _ _).nodup_iff.2 (nodup_eraseDups names)

theorem pairwise_sortedSet (names : List String) : (sortedSet names).Pairwise (· < ·) := by
  have rising : (sortedSet names).Pairwise fun a b => decide (a ≤ b) = true :=
    List.pairwise_mergeSort
      (fun a b c hab hbc => decide_eq_true ((of_decide_eq_true hab).trans (of_decide_eq_true hbc)))
      (fun a b => by simpa using le_total a b) _
  exact rising.imp₂ (fun a b hle ne => lt_of_le_of_ne (of_decide_eq_true hle) ne)
    (nodup_sortedSet names)

namespace Index

/-- The records that an update replaces are those of the entry of its key. -/
theorem mem_usagesOf_build {changes : List Change} {key : String} {u : Usage} :
    u ∈ (build changes).usagesOf key ↔
      ∃ entry, Index.entry? (build changes) key = some entry ∧ u ∈ entry.usages := by
  rw [mem_usagesOf]
  simp only [entry?_eq_some (nodup_keys_build changes), and_assoc]

end Index

namespace Annotation

open Index

/-- What an update does not name as affected is drawn as before. On any index that updates and
clearings have led to, the affected paths are exactly those that the replaced records and the new
ones are declared for, and a document that they leave out keeps its records, their order and so its
decorations. -/
theorem affected_sound (changes : List Change) (key : String) (usages : List Usage) :
    ((build changes).affected key usages).Pairwise (· < ·) ∧
    (∀ name, name ∈ (build changes).affected key usages ↔
      (∃ entry, Index.entry? (build changes) key = some entry ∧
        ∃ u ∈ entry.usages, u.declaredPath = name) ∨ ∃ u ∈ usages, u.declaredPath = name) ∧
    (∀ real doc, (Affected.paths ((build changes).affected key usages)).includes real = false →
      usagesFor ((build changes).apply key usages) real doc = usagesFor (build changes) real doc ∧
      decorations (usagesFor ((build changes).apply key usages) real doc) doc =
        decorations (usagesFor (build changes) real doc) doc) ∧
    (∀ path, path ∉ (build changes).affected key usages →
      ((build changes).apply key usages).query path = (build changes).query path) ∧
    ((build changes).apply key usages).entries.getLast? = some ⟨key, usages⟩ := by
  refine ⟨pairwise_sortedSet _, fun name => ?_, fun real doc left => ?_,
    fun path => query_apply_of_notMem, List.getLast?_concat⟩
  · rw [mem_affected]
    constructor
    · rintro ⟨u, old | new, rfl⟩
      · obtain ⟨entry, he, hu⟩ := mem_usagesOf_build.1 old
        exact .inl ⟨entry, he, u, hu, rfl⟩
      · exact .inr ⟨u, new, rfl⟩
    · rintro (⟨entry, he, u, hu, rfl⟩ | ⟨u, new, rfl⟩)
      · exact ⟨u, .inl (mem_usagesOf_build.2 ⟨entry, he, hu⟩), rfl⟩
      · exact ⟨u, .inr new, rfl⟩
  · have same := usagesFor_apply left doc
    exact ⟨same, by rw [same]⟩

/-- One source declares its records by a real path, the other one by a bare name. -/
def mixed : List Change :=
  [.apply "a.c" [⟨"/w/a.c", 1, 1, "f", 8, ⟨true, false, false⟩⟩],
    .apply "b.c" [⟨"b.c", 1, 1, "g", 8, ⟨true, false, false⟩⟩]]

theorem affected_sound_mixed :
    (Affected.paths ((build mixed).affected "a.c" [])).includes ⟨"/w/b.c"⟩ = false ∧
      ((build mixed).apply "a.c" []).keys = ["b.c", "a.c"] ∧
      decorations (usagesFor ((build mixed).apply "a.c" []) ⟨"/w/b.c"⟩ ⟨⟨"/w/b.c"⟩, ["int g;"]⟩)
        ⟨⟨"/w/b.c"⟩, ["int g;"]⟩ = [⟨0, "g", "8 bytes"⟩] := by
  have left : (Affected.paths ((build mixed).affected "a.c" [])).includes ⟨"/w/b.c"⟩ = false := by
    decide +kernel
  obtain ⟨-, -, kept, -, -⟩ := affected_sound mixed "a.c" []
  refine ⟨left, by decide +kernel, (kept ⟨"/w/b.c"⟩ ⟨⟨"/w/b.c"⟩, ["int g;"]⟩ left).2.trans ?_⟩
  decide +kernel

end Annotation

end StackUsage

import Mathlib.Algebra.GroupWithZero.Nat
import Mathlib.Data.Finset.Card
import Mathlib.Data.List.DropRight
import StackUsage.Proofs.Index

/-! What an index holds after any history of updates and clearings: for each key that was written
since the last clearing, the entry written last, in the order of these last writes. Everything that
is read of an index follows from its entries. In a history, updates of two keys that stand next to
each other may change places, which bears on the order of the entries alone, and an update whose key
is written again before the index is read leaves no trace, whatever happens in between. -/

namespace StackUsage

/-- Writing a name once more moves it to the end. -/
theorem dedup_concat (names : List String) (name : String) :
    (names ++ [name]).dedup = names.dedup.filter (· ≠ name) ++ [name] := by
  induction names with
  | nil => simp
  | cons first rest ih =>
    rw [List.cons_append]
    by_cases later : first ∈ rest
    · rw [List.dedup_cons_of_mem (List.mem_append_left _ later), List.dedup_cons_of_mem later, ih]
    · rw [List.dedup_cons_of_notMem later]
      by_cases he : first = name
      · rw [List.dedup_cons_of_mem (by simp [he]), List.filter_cons_of_neg (by simp [he]), ih]
      · rw [List.dedup_cons_of_notMem (by simp [later, he]), List.filter_cons_of_pos (by simp [he]),
          ih, List.cons_append]

namespace Index

/-! ### Histories -/

/-- What can happen to an index. -/
inductive Change
  | apply (key : String) (usages : List Usage)
  | clear
  deriving DecidableEq, Repr

/-- The entry that a change writes. -/
def Change.write? : Change → Option SourceEntry
  | .apply key usages => some ⟨key, usages⟩
  | .clear => none

def change (index : Index) : Change → Index
  | .apply key usages => index.apply key usages
  | .clear => .empty

def changed (index : Index) (changes : List Change) : Index := changes.foldl change index

/-- A fresh index after these changes. -/
def build (changes : List Change) : Index := empty.changed changes

/-- The entries written since the last clearing, in order, also those that were replaced. -/
def written (changes : List Change) : List SourceEntry :=
  (changes.rtakeWhile fun c => c.write?.isSome).filterMap Change.write?

/-- An entry is the latest with its key if none with that key was written behind it. -/
def Latest (writes : List SourceEntry) (entry : SourceEntry) : Prop :=
  ∃ before after, writes = before ++ entry :: after ∧
    ∀ later ∈ after, later.sourceKey ≠ entry.sourceKey

theorem build_concat (changes : List Change) (c : Change) :
    build (changes ++ [c]) = (build changes).change c := List.foldl_concat ..

theorem build_append (changes more : List Change) :
    build (changes ++ more) = (build changes).changed more := List.foldl_append ..

theorem written_apply (changes : List Change) (key : String) (usages : List Usage) :
    written (changes ++ [.apply key usages]) = written changes ++ [⟨key, usages⟩] := by
  rw [written, List.rtakeWhile_concat_pos _ _ _ rfl, List.filterMap_append]
  rfl

theorem written_clear (changes : List Change) : written (changes ++ [.clear]) = [] := by
  rw [written, List.rtakeWhile_concat_neg _ _ _ (by simp [Change.write?]), List.filterMap_nil]

theorem latest_concat {writes : List SourceEntry} {last entry : SourceEntry} :
    Latest (writes ++ [last]) entry ↔
      entry = last ∨ Latest writes entry ∧ last.sourceKey ≠ entry.sourceKey := by
  constructor
  · rintro ⟨before, after, he, latest⟩
    rcases List.eq_nil_or_concat' after with rfl | ⟨init, w, rfl⟩
    · obtain ⟨-, he⟩ := List.append_inj' he rfl
      exact .inl (List.singleton_inj.1 he).symm
    · rw [← List.cons_append, ← List.append_assoc] at he
      obtain ⟨rfl, tail⟩ := List.append_inj' he rfl
      cases List.singleton_inj.1 tail
      exact .inr ⟨⟨before, init, rfl, fun later hl => latest later (by simp [hl])⟩,
        latest last (by simp)⟩
  · rintro (rfl | ⟨⟨before, after, rfl, latest⟩, ne⟩)
    · exact ⟨writes, [], rfl, by simp⟩
    · refine ⟨before, after ++ [last], by simp, fun later hl => ?_⟩
      rcases List.mem_append.1 hl with hl | hl
      · exact latest later hl
      · cases List.mem_singleton.1 hl
        exact ne

/-! ### The entries of a history -/

theorem keys_apply (index : Index) (key : String) (usages : List Usage) :
    (index.apply key usages).keys = index.keys.filter (· ≠ key) ++ [key] := by
  simp only [keys, apply, List.map_append, List.filter_map, Function.comp_def, List.map_cons,
    List.map_nil]

/-- Every key written since the last clearing has one place, that of its last write. -/
theorem keys_build (changes : List Change) :
    (build changes).keys = ((written changes).map (·.sourceKey)).dedup := by
  induction changes using List.reverseRecOn with
  | nil => rfl
  | append_singleton changes c ih =>
    rw [build_concat]
    cases c with
    | apply key usages =>
      rw [change, keys_apply, ih, written_apply, List.map_append, List.map_singleton, dedup_concat]
    | clear =>
      rw [written_clear]
      rfl

theorem nodup_keys_build (changes : List Change) : (build changes).keys.Nodup := by
  rw [keys_build]
  exact List.nodup_dedup _

theorem mem_entries_build {changes : List Change} {entry : SourceEntry} :
    entry ∈ (build changes).entries ↔ Latest (written changes) entry := by
  induction changes using List.reverseRecOn with
  | nil => simp [build, changed, empty, written, Latest]
  | append_singleton changes c ih =>
    rw [build_concat]
    cases c with
    | apply key usages =>
      rw [written_apply, latest_concat, ← ih, change, apply, List.mem_append, List.mem_filter,
        List.mem_singleton, decide_eq_true_eq, or_comm, ne_comm]
    | clear =>
      rw [written_clear]
      simp [change, empty, Latest]

/-- Where no key has two entries, a key has the entry that is there. -/
theorem entry?_eq_some {index : Index} (distinct : index.keys.Nodup) {key : String}
    {entry : SourceEntry} :
    index.entry? key = some entry ↔ entry ∈ index.entries ∧ entry.sourceKey = key := by
  constructor
  · intro h
    exact ⟨List.mem_of_find?_eq_some h, by simpa using List.find?_some h⟩
  · rintro ⟨mem, rfl⟩
    cases hf : index.entry? entry.sourceKey with
    | none =>
      have := List.find?_eq_none.1 hf entry mem
      simp at this
    | some other =>
      have same : other.sourceKey = entry.sourceKey := by simpa using List.find?_some hf
      rw [List.inj_on_of_nodup_map distinct (List.mem_of_find?_eq_some hf) mem same]

theorem entry?_eq_none {index : Index} {key : String} :
    index.entry? key = none ↔ key ∉ index.keys := by
  simp [keys, entry?]

/-! ### Readings -/

theorem size_eq_sum (index : Index) :
    index.size = (index.entries.map fun entry => entry.usages.length).sum := List.length_flatMap

theorem isEmpty_iff {index : Index} : index.isEmpty = true ↔ index.size = 0 := by
  rw [size, List.length_eq_zero_iff, usages, List.flatMap_eq_nil_iff]
  simp [isEmpty]

/-! ### Updates that change places or are undone -/

theorem Alike.changed {i j : Index} (h : Alike i j) (changes : List Change) :
    Alike (i.changed changes) (j.changed changes) := by
  induction changes generalizing i j with
  | nil => exact h
  | cons c rest ih =>
    cases c with
    | apply key usages => exact ih (h.apply key usages)
    | clear => exact ih (.refl _)

/-- The entries of the other keys. -/
def without (index : Index) (key : String) : List SourceEntry :=
  index.entries.filter (·.sourceKey ≠ key)

/-- An update reads nothing but the entries of the other keys. -/
theorem apply_congr {i j : Index} {key : String} (h : i.without key = j.without key)
    (usages : List Usage) : i.apply key usages = j.apply key usages :=
  congrArg (fun entries => Index.mk (entries ++ [⟨key, usages⟩])) h

theorem without_apply_self (index : Index) (key : String) (usages : List Usage) :
    (index.apply key usages).without key = index.without key := by
  simp [without, apply]

/-- What happens to the other keys does not depend on the entry of a key. -/
theorem without_change {i j : Index} {key : String} (h : i.without key = j.without key)
    (c : Change) : (i.change c).without key = (j.change c).without key := by
  cases c with
  | apply k usages =>
    have moved : ∀ index : Index, (index.apply k usages).without key =
        (index.without key).filter (·.sourceKey ≠ k) ++
          [SourceEntry.mk k usages].filter (·.sourceKey ≠ key) := by
      intro index
      rw [without, apply, List.filter_append, List.filter_comm]
      rfl
    rw [change, change, moved, moved, h]
  | clear => rfl

theorem without_changed {i j : Index} {key : String} (h : i.without key = j.without key)
    (changes : List Change) :
    (i.changed changes).without key = (j.changed changes).without key := by
  induction changes generalizing i j with
  | nil => exact h
  | cons c rest ih => exact ih (without_change h c)

/-- An update is undone by the next one of its key. -/
theorem changed_apply_again (index : Index) (key : String) (old new : List Usage)
    (between : List Change) :
    ((index.apply key old).changed between).apply key new =
      (index.changed between).apply key new :=
  apply_congr (without_changed (without_apply_self index key old) between) new

/-- An index holds the last writes in their order. The keys of the entries are those written
since the last clearing, each at the place of its last write, and an entry is there if it is the
latest with its key; every reading of the index follows. Updates of two keys commute up to the order
of the entries, and an update is as if it had not been once its key is updated again. -/
theorem last_writes (changes : List Change) :
    (build changes).keys = ((written changes).map (·.sourceKey)).dedup ∧
    (∀ entry, entry ∈ (build changes).entries ↔ Latest (written changes) entry) ∧
    (∀ key entry, Index.entry? (build changes) key = some entry ↔
      Latest (written changes) entry ∧ entry.sourceKey = key) ∧
    (∀ key, Index.entry? (build changes) key = none ↔ key ∉ (written changes).map (·.sourceKey)) ∧
    (∀ path, (build changes).query path = (build changes).entries.flatMap fun entry =>
      entry.usages.filter (·.declaredPath = path)) ∧
    (build changes).size = ((build changes).entries.map fun entry => entry.usages.length).sum ∧
    ((build changes).isEmpty = true ↔ (build changes).size = 0) ∧
    (build changes).sourceCount = ((written changes).map (·.sourceKey)).toFinset.card ∧
    (∀ a b x y later, a ≠ b →
      Alike (build (changes ++ .apply a x :: .apply b y :: later))
        (build (changes ++ .apply b y :: .apply a x :: later))) ∧
    (∀ key old new between later,
      build (changes ++ .apply key old :: between ++ .apply key new :: later) =
        build (changes ++ between ++ .apply key new :: later)) := by
  have keys := keys_build changes
  refine ⟨keys, fun _ => mem_entries_build, fun key entry => ?_, fun key => ?_,
    query_eq_flatMap _, size_eq_sum _, isEmpty_iff, ?_, fun a b x y later ne => ?_,
    fun key old new between later => ?_⟩
  · rw [entry?_eq_some (nodup_keys_build changes), mem_entries_build]
  · rw [entry?_eq_none, keys, List.mem_dedup]
  · rw [List.card_toFinset, ← keys, Index.keys, List.length_map]
    rfl
  · rw [build_append, build_append]
    exact (Alike.swap ne x y (build changes)).changed later
  · rw [List.append_assoc, List.append_assoc, build_append, build_append]
    have again := changed_apply_again (build changes) key old new between
    simp only [changed, List.cons_append, List.foldl_cons, List.foldl_append, change] at again ⊢
    rw [again]

/-- One key is written before the clearing only, and one twice behind it. -/
def relapsed : List Change :=
  [.apply "x.c" [⟨"x.c", 1, 1, "f", 8, ⟨true, false, false⟩⟩], .clear, .apply "a.c" [],
    .apply "b.c" [], .apply "a.c" [⟨"a.c", 1, 1, "f", 8, ⟨true, false, false⟩⟩]]

theorem last_writes_relapsed :
    (build relapsed).keys = ["b.c", "a.c"] ∧ Index.entry? (build relapsed) "x.c" = none ∧
      "a.c" ≠ "b.c" ∧ Alike (build (relapsed ++ [.apply "a.c" [], .apply "b.c" []]))
        (build (relapsed ++ [.apply "b.c" [], .apply "a.c" []])) := by
  obtain ⟨keys, -, -, absent, -, -, -, -, commute, -⟩ := last_writes relapsed
  exact ⟨keys.trans (by decide +kernel), (absent "x.c").2 (by decide +kernel), by decide,
    commute "a.c" "b.c" [] [] [] (by decide)⟩

end Index

end StackUsage

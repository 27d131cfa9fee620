import StackUsage.Index

/-! Laws of the index. An update gives its key the new records, leaves every other key its entry,
and changes no query for a path outside the affected ones, although the entry moves to the end. -/

namespace StackUsage

theorem mem_sortedSet {name : String} {names : List String} :
    name ∈ sortedSet names ↔ name ∈ names := by
  rw [sortedSet, (List.mergeSort_perm _ _).mem_iff, List.mem_eraseDups]

namespace Index

/-! ### Keys and entries -/

def keys (index : Index) : List String := index.entries.map (·.sourceKey)

@[simp] theorem keys_empty : empty.keys = [] := rfl

@[simp] theorem mem_keys_apply {index : Index} {key k : String} {usages : List Usage} :
    k ∈ (index.apply key usages).keys ↔ k ∈ index.keys ∨ k = key := by
  simp only [keys, apply, List.map_append, List.mem_append, List.mem_map, List.mem_filter,
    List.map_cons, List.map_nil, List.mem_singleton, decide_eq_true_eq]
  constructor
  · rintro (⟨entry, ⟨he, -⟩, rfl⟩ | rfl)
    · exact .inl ⟨entry, he, rfl⟩
    · exact .inr rfl
  · rintro (⟨entry, he, rfl⟩ | rfl)
    · by_cases h : entry.sourceKey = key
      · exact .inr h
      · exact .inl ⟨entry, ⟨he, h⟩, rfl⟩
    · exact .inr rfl

theorem entry?_apply_self (index : Index) (key : String) (usages : List Usage) :
    entry? (index.apply key usages) key = some ⟨key, usages⟩ := by
  have hne : (index.entries.filter (·.sourceKey ≠ key)).find? (·.sourceKey = key) = none := by
    rw [List.find?_eq_none]
    intro entry he
    have := (List.mem_filter.1 he).2
    simpa using this
  unfold entry?
  rw [apply, List.find?_append, hne]
  simp

theorem entry?_apply_of_ne {index : Index} {key k : String} {usages : List Usage} (h : k ≠ key) :
    entry? (index.apply key usages) k = index.entry? k := by
  have hlast : [SourceEntry.mk key usages].find? (·.sourceKey = k) = none := by
    simp [Ne.symm h]
  unfold entry?
  rw [apply, List.find?_append, hlast, Option.or_none, List.find?_filter]
  congr 1
  funext entry
  by_cases hk : entry.sourceKey = k
  · simp [hk, h]
  · simp [hk]

theorem mem_of_entry? {index : Index} {key : String} {usages : List Usage}
    (h : index.entry? key = some ⟨key, usages⟩) : ⟨key, usages⟩ ∈ index.entries :=
  List.mem_of_find?_eq_some h

/-! ### Queries -/

theorem mem_usages {index : Index} {u : Usage} :
    u ∈ index.usages ↔ ∃ entry ∈ index.entries, u ∈ entry.usages := List.mem_flatMap

theorem mem_query {index : Index} {path : String} {u : Usage} :
    u ∈ index.query path ↔ u ∈ index.usages ∧ u.declaredPath = path := by
  simp [query, List.mem_filter]

/-- A record of an entry is found under the path that it is declared for. -/
theorem mem_query_of_entry? {index : Index} {key : String} {usages : List Usage} {u : Usage}
    (h : index.entry? key = some ⟨key, usages⟩) (hu : u ∈ usages) :
    u ∈ index.query u.declaredPath :=
  mem_query.2 ⟨mem_usages.2 ⟨_, mem_of_entry? h, hu⟩, rfl⟩

/-- The records that one entry contributes to a query. -/
def declared (path : String) (entry : SourceEntry) : List Usage :=
  entry.usages.filter (·.declaredPath = path)

theorem query_eq_flatMap (index : Index) (path : String) :
    index.query path = index.entries.flatMap (declared path) := by
  rw [query, usages, List.filter_flatMap]
  rfl

theorem mem_affected {index : Index} {key name : String} {usages : List Usage} :
    name ∈ index.affected key usages ↔
      ∃ u, (u ∈ index.usagesOf key ∨ u ∈ usages) ∧ u.declaredPath = name := by
  rw [affected, mem_sortedSet, List.mem_map]
  simp only [List.mem_append]

theorem mem_usagesOf {index : Index} {key : String} {u : Usage} :
    u ∈ index.usagesOf key ↔ ∃ entry ∈ index.entries, entry.sourceKey = key ∧ u ∈ entry.usages := by
  rw [usagesOf, List.mem_flatMap]
  constructor
  · rintro ⟨entry, he, hu⟩
    split at hu
    · next hk => exact ⟨entry, he, hk, hu⟩
    · cases hu
  · rintro ⟨entry, he, hk, hu⟩
    exact ⟨entry, he, by rwa [if_pos hk]⟩

theorem mem_usagesOf_apply_self {index : Index} {key : String} {usages : List Usage} {u : Usage} :
    u ∈ (index.apply key usages).usagesOf key ↔ u ∈ usages := by
  rw [mem_usagesOf, apply]
  simp only [List.mem_append, List.mem_filter, List.mem_singleton]
  constructor
  · rintro ⟨entry, ⟨-, ne⟩ | rfl, hk, hu⟩
    · exact absurd hk (by simpa using ne)
    · exact hu
  · exact fun hu => ⟨_, .inr rfl, rfl, hu⟩

theorem mem_usagesOf_apply_of_ne {index : Index} {key k : String} {usages : List Usage}
    (h : k ≠ key) {u : Usage} :
    u ∈ (index.apply key usages).usagesOf k ↔ u ∈ index.usagesOf k := by
  rw [mem_usagesOf, mem_usagesOf, apply]
  simp only [List.mem_append, List.mem_filter, List.mem_singleton]
  constructor
  · rintro ⟨entry, ⟨he, -⟩ | rfl, hk, hu⟩
    · exact ⟨entry, he, hk, hu⟩
    · exact absurd hk.symm h
  · rintro ⟨entry, he, rfl, hu⟩
    exact ⟨entry, .inl ⟨he, by simpa using h⟩, rfl, hu⟩

/-- Entries that contribute nothing may be dropped from a query. -/
theorem flatMap_filter_eq {entries : List SourceEntry} {key path : String}
    (h : ∀ entry ∈ entries, entry.sourceKey = key → declared path entry = []) :
    (entries.filter (·.sourceKey ≠ key)).flatMap (declared path) =
      entries.flatMap (declared path) := by
  induction entries with
  | nil => rfl
  | cons entry rest ih =>
    have ih := ih fun e he => h e (List.mem_cons_of_mem _ he)
    by_cases hk : entry.sourceKey = key
    · rw [List.filter_cons_of_neg (by simp [hk]), ih, List.flatMap_cons, h entry (by simp) hk,
        List.nil_append]
    · rw [List.filter_cons_of_pos (by simp [hk]), List.flatMap_cons, ih, List.flatMap_cons]

/-- A path outside the affected ones keeps its records and their order. -/
theorem query_apply_of_notMem {index : Index} {key path : String} {usages : List Usage}
    (h : path ∉ index.affected key usages) :
    (index.apply key usages).query path = index.query path := by
  have hold : ∀ entry ∈ index.entries, entry.sourceKey = key → declared path entry = [] := by
    intro entry he hk
    rw [declared, List.filter_eq_nil_iff]
    intro u hu hp
    exact h (mem_affected.2 ⟨u, .inl (mem_usagesOf.2 ⟨entry, he, hk, hu⟩), by simpa using hp⟩)
  have hnew : declared path ⟨key, usages⟩ = [] := by
    rw [declared, List.filter_eq_nil_iff]
    intro u hu hp
    exact h (mem_affected.2 ⟨u, .inr hu, by simpa using hp⟩)
  rw [query_eq_flatMap, query_eq_flatMap, apply, List.flatMap_append, flatMap_filter_eq hold,
    List.flatMap_cons, hnew]
  simp

/-! ### The order of entries -/

/-- The same entries in some order, and the same entry for every key. -/
structure Alike (i j : Index) : Prop where
  entries : i.entries.Perm j.entries
  entry : ∀ key, i.entry? key = j.entry? key

namespace Alike

variable {i j k : Index}

theorem refl (i : Index) : Alike i i := ⟨.refl _, fun _ => rfl⟩

theorem trans (h : Alike i j) (h' : Alike j k) : Alike i k :=
  ⟨h.entries.trans h'.entries, fun key => (h.entry key).trans (h'.entry key)⟩

theorem apply (h : Alike i j) (key : String) (usages : List Usage) :
    Alike (i.apply key usages) (j.apply key usages) where
  entries := (h.entries.filter _).append_right _
  entry k := by
    by_cases hk : k = key
    · subst hk
      rw [entry?_apply_self, entry?_apply_self]
    · rw [entry?_apply_of_ne hk, entry?_apply_of_ne hk, h.entry]

/-- Updates of two keys may change places. -/
theorem swap {a b : String} (h : a ≠ b) (x y : List Usage) (i : Index) :
    Alike ((i.apply a x).apply b y) ((i.apply b y).apply a x) where
  entries := by
    have left : ([⟨a, x⟩] : List SourceEntry).filter (·.sourceKey ≠ b) = [⟨a, x⟩] := by simp [h]
    have right : ([⟨b, y⟩] : List SourceEntry).filter (·.sourceKey ≠ a) = [⟨b, y⟩] := by
      simp [h.symm]
    simp only [Index.apply, List.filter_append, left, right, List.append_assoc]
    rw [List.filter_filter, List.filter_filter]
    simp only [Bool.and_comm]
    exact (List.perm_append_comm).append_left _
  entry k := by
    by_cases hb : k = b
    · subst hb
      rw [entry?_apply_self, entry?_apply_of_ne h.symm, entry?_apply_self]
    · rw [entry?_apply_of_ne hb]
      by_cases ha : k = a
      · subst ha
        rw [entry?_apply_self, entry?_apply_self]
      · rw [entry?_apply_of_ne ha, entry?_apply_of_ne ha, entry?_apply_of_ne hb]

theorem query (h : Alike i j) (path : String) : (i.query path).Perm (j.query path) :=
  (h.entries.flatMap_right _).filter _

end Alike

end Index

end StackUsage

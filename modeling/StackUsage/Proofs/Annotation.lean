import StackUsage.Annotation
import StackUsage.Proofs.Index

/-! What a rendering pass sends, path by path. With the real paths of the documents given as a
function, a pass is a view of the index, and what it sends to a path depends only on whether the
path is a source, whether the pass concerns it, and on the records for its real path. A pass over
the affected paths of an update leaves out only documents whose records the update does not
change. -/

namespace StackUsage.Annotation

/-- The last of the decorations that were sent to a path. -/
def lastFor (path : Path) (sent : List (Path × List Decoration)) : Option (List Decoration) :=
  (sent.filter (·.1 = path)).getLast?.map (·.2)

theorem lastFor_append (path : Path) (a b : List (Path × List Decoration)) :
    lastFor path (a ++ b) = (lastFor path b).or (lastFor path a) := by
  simp only [lastFor, List.filter_append, List.getLast?_append, Option.map_or]

/-! ### Views of an index -/

/-- What a document with a known real path is sent. -/
def draw (real : Path → Path) (config : Config) (index : Index) (affected : Affected)
    (doc : Document) : Option (Path × List Decoration) :=
  if config.isSource doc.path && affected.includes (real doc.path) then
    some (doc.path, decorations (usagesFor index (real doc.path) doc) doc)
  else none

/-- What documents with known real paths are sent. -/
def view (real : Path → Path) (config : Config) (index : Index) (affected : Affected)
    (documents : List Document) : List (Path × List Decoration) :=
  documents.filterMap (draw real config index affected)

/-- Whether the documents have the given real paths whenever the disk is read. -/
def Placed (real : Path → Path) (documents : List Document) (d : Disk) : Prop :=
  ∀ doc ∈ documents, ∀ k, (d k).realPath doc.path = real doc.path

theorem publish_eq_view {real : Path → Path} {documents : List Document} {d : Disk}
    (h : Placed real documents d) (config : Config) (index : Index) (affected : Affected) :
    publish d config index affected documents = view real config index affected documents := by
  rw [publish, view]
  induction documents generalizing d with
  | nil => rfl
  | cons doc rest ih =>
    have hr : render? (d 0) config index affected doc = draw real config index affected doc := by
      rw [render?, h doc (by simp) 0]
      rfl
    have ih := @ih (fun k => d (k + 1)) fun e he k => h e (List.mem_cons_of_mem _ he) (k + 1)
    rw [List.mapIdx_cons, List.filterMap_cons, hr, ih, List.filterMap_cons]
    rfl

variable {real : Path → Path} {config : Config} {index : Index} {affected : Affected}
  {documents : List Document} {path : Path}

theorem draw_eq_some {doc : Document} {s : Path × List Decoration}
    (h : draw real config index affected doc = some s) :
    config.isSource doc.path = true ∧ s.1 = doc.path := by
  simp only [draw, Option.ite_none_right_eq_some, Bool.and_eq_true, Option.some.injEq] at h
  obtain ⟨⟨hs, -⟩, rfl⟩ := h
  exact ⟨hs, rfl⟩

theorem isSource_of_mem_view {s : Path × List Decoration}
    (h : s ∈ view real config index affected documents) : config.isSource s.1 = true := by
  obtain ⟨doc, -, hd⟩ := List.mem_filterMap.1 h
  obtain ⟨hs, hp⟩ := draw_eq_some hd
  rw [hp]
  exact hs

/-- What a pass sends to one path: the documents with this path, if they are sources and the pass
concerns them. -/
theorem filter_view (path : Path) :
    (view real config index affected documents).filter (·.1 = path) =
      if config.isSource path && affected.includes (real path) then
        (documents.filter (·.path = path)).map fun doc =>
          (path, decorations (usagesFor index (real path) doc) doc)
      else [] := by
  induction documents with
  | nil => simp [view]
  | cons doc rest ih =>
    rw [view] at ih ⊢
    by_cases hp : doc.path = path
    · subst hp
      rw [List.filterMap_cons, draw]
      by_cases hc : (config.isSource doc.path && affected.includes (real doc.path)) = true
      · simp only [hc, if_true] at ih ⊢
        simp [ih]
      · simp only [hc] at ih ⊢
        exact ih
    · rw [List.filter_cons_of_neg (by simpa using hp), ← ih, List.filterMap_cons]
      cases hd : draw real config index affected doc with
      | none => rfl
      | some s =>
        have hs : s.1 ≠ path := by
          rw [(draw_eq_some hd).2]
          exact hp
        simp [hs]

/-- A document that the pass concerns is sent what rendering everything would send it. -/
theorem lastFor_view_of_includes (h : affected.includes (real path) = true) :
    lastFor path (view real config index affected documents) =
      lastFor path (view real config index .all documents) := by
  rw [lastFor, lastFor, filter_view, filter_view, h]
  rfl

theorem lastFor_view_of_excludes (h : affected.includes (real path) = false) :
    lastFor path (view real config index affected documents) = none := by
  rw [lastFor, filter_view, h, Bool.and_false]
  rfl

/-- Rendering only the documents with some of the paths sends those documents what rendering all
documents would send them. -/
theorem lastFor_view_filter (chosen : Path → Bool) :
    lastFor path (view real config index affected (documents.filter fun doc => chosen doc.path)) =
      if chosen path then lastFor path (view real config index affected documents) else none := by
  have hf : (documents.filter fun doc => chosen doc.path).filter (·.path = path) =
      if chosen path then documents.filter (·.path = path) else [] := by
    rw [List.filter_filter]
    split
    · next hc =>
      apply List.filter_congr
      intro doc _
      by_cases hp : doc.path = path <;> simp [hp, hc]
    · next hc =>
      rw [List.filter_eq_nil_iff]
      intro doc _
      by_cases hp : doc.path = path <;> simp [hp, hc]
  rw [lastFor, lastFor, filter_view, filter_view, hf]
  by_cases hc : chosen path = true
  · simp [hc]
  · simp [hc]

/-! ### Updates of the index -/

/-- An update of the index changes no records for a real path that its affected paths leave out. -/
theorem usagesFor_apply {key : String} {usages : List Usage} {r : Path}
    (h : (Affected.paths (index.affected key usages)).includes r = false) (doc : Document) :
    usagesFor (index.apply key usages) r doc = usagesFor index r doc := by
  simp only [Affected.includes, Bool.or_eq_false_iff, List.contains_eq_mem,
    decide_eq_false_iff_not] at h
  obtain ⟨hr, hn⟩ := h
  rw [usagesFor, usagesFor, Index.query_apply_of_notMem hr]
  cases hf : r.fileName with
  | none => rfl
  | some name =>
    have hn : name ∉ index.affected key usages := by simpa [hf] using hn
    simp only [Index.query_apply_of_notMem hn]

theorem lastFor_view_apply {key : String} {usages : List Usage}
    (h : (Affected.paths (index.affected key usages)).includes (real path) = false) :
    lastFor path (view real config (index.apply key usages) .all documents) =
      lastFor path (view real config index .all documents) := by
  simp only [lastFor, filter_view, usagesFor_apply h]

/-! ### Every visible source -/

/-- Rendering everything sends something to every visible source: what the last document with its
path gets. -/
theorem exists_lastFor_view (real : Path → Path) (index : Index) {doc : Document}
    (hd : doc ∈ documents) (hs : config.isSource doc.path = true) :
    ∃ e ∈ documents, e.path = doc.path ∧
      lastFor doc.path (view real config index .all documents) =
        some (decorations (usagesFor index (real doc.path) e) e) := by
  have hmem : doc ∈ documents.filter (·.path = doc.path) := by simpa using hd
  have hne := List.ne_nil_of_mem hmem
  have hlast := List.getLast_mem hne
  simp only [List.mem_filter, decide_eq_true_eq] at hlast
  refine ⟨_, hlast.1, hlast.2, ?_⟩
  rw [lastFor, filter_view, hs]
  simp only [Affected.includes, Bool.and_self, if_true, List.getLast?_map]
  rw [List.getLast?_eq_some_getLast hne]
  rfl

theorem decorations_empty (r : Path) (doc : Document) :
    decorations (usagesFor .empty r doc) doc = [] := by
  have hq : ∀ p, Index.empty.query p = [] := fun _ => rfl
  simp only [usagesFor, hq]
  cases r.fileName <;> rfl

/-- By an empty index every visible source is sent an empty list. -/
theorem lastFor_view_empty {doc : Document} (hd : doc ∈ documents)
    (hs : config.isSource doc.path = true) :
    lastFor doc.path (view real config .empty .all documents) = some [] := by
  obtain ⟨e, -, -, he⟩ := exists_lastFor_view real .empty hd hs
  rw [he, decorations_empty]

/-! ### Entries in another order -/

/-- What rendering everything sends to a source is for the last document at its path. -/
theorem lastFor_view_all (hs : config.isSource path = true) :
    lastFor path (view real config index .all documents) =
      (documents.filter (·.path = path)).getLast?.map fun doc =>
        decorations (usagesFor index (real path) doc) doc := by
  rw [lastFor, filter_view, hs]
  simp only [Affected.includes, Bool.and_self, if_true, List.getLast?_map, Option.map_map]
  rfl

/-- The order of the entries bears only on the order of the decorations. -/
theorem decorations_alike {i j : Index} (h : Index.Alike i j) (r : Path) (doc : Document) :
    (decorations (usagesFor i r doc) doc).Perm (decorations (usagesFor j r doc) doc) := by
  refine List.Perm.filterMap _ ((h.query _).append ?_)
  cases r.fileName with
  | none => exact .refl _
  | some name => exact (h.query name).filter _

end StackUsage.Annotation

import StackUsage.Proofs.Annotation
import StackUsage.Proofs.Controller.InStep

/-! What a pass on a still tree has to go by: the tree and the workspace, the visible documents, and
which paths may be watched. From these alone it is settled which real manifest and which reports the
manifest's location leads to, how that fails, and what an index shows in a document. Reports that
have source keys of their own may be taken in in any order, and a document that none of them
concerns is shown the same before and after. -/

namespace StackUsage

/-- What a failure is about, its words left out. -/
inductive Failure.Kind
  | access
  | manifest
  | watch
  deriving DecidableEq, Repr

def Failure.kind : Failure → Failure.Kind
  | .access _ => .access
  | .manifest _ _ => .manifest
  | .watch _ => .watch

/-- What a pass works on: a still tree, a workspace, visible documents, and a watch service that
refuses by the path alone. -/
structure Scene where
  tree : Tree
  root : Path
  config : Config
  documents : List Document
  accepts : Path → Bool

namespace Scene

open Annotation

variable (s : Scene)

def manifest : Except Failure Resolution :=
  Resolution.resolve s.tree (Snapshot.location s.root s.config)

/-- The real manifest, if there is one and it may be watched. -/
def target? : Option Path := (s.manifest.toOption.bind Resolution.path?).filter s.accepts

/-- The units that the manifest names and whose reports may be watched. -/
def named : List ReportUnit :=
  match s.manifest with
  | .error _ => []
  | .ok manifest =>
    ((Snapshot.unitsOf (.still s.tree) s.config manifest).toOption.getD []).filter fun unit =>
      s.accepts unit.reportPath

def takeIn (units : List ReportUnit) (index : Index) : Index :=
  Snapshot.takeIn s.tree s.config units index

/-- How the handling of the real manifest fails. -/
def lost : Option Failure.Kind :=
  match s.manifest with
  | .error failure => some failure.kind
  | .ok _ => none

/-- How the handling of the location fails. -/
def astray : Option Failure.Kind :=
  match s.manifest with
  | .error failure => some failure.kind
  | .ok manifest => if manifest.path?.all s.accepts then none else some .watch

theorem lost_or_astray : s.lost.or s.astray = s.astray := by
  unfold lost astray
  cases s.manifest <;> rfl

variable {s}

section

variable {failure : Failure} {manifest : Resolution}

theorem lost_of_error (h : s.manifest = .error failure) : s.lost = some failure.kind := by
  unfold lost
  rw [h]

theorem named_of_error (h : s.manifest = .error failure) : s.named = [] := by
  unfold named
  rw [h]

theorem astray_of_error (h : s.manifest = .error failure) : s.astray = some failure.kind := by
  unfold astray
  rw [h]

theorem lost_of_ok (h : s.manifest = .ok manifest) : s.lost = none := by
  unfold lost
  rw [h]

theorem named_of_ok (h : s.manifest = .ok manifest) :
    s.named = ((Snapshot.unitsOf (.still s.tree) s.config manifest).toOption.getD []).filter
      fun unit => s.accepts unit.reportPath := by
  unfold named
  rw [h]

theorem astray_of_ok (h : s.manifest = .ok manifest) :
    s.astray = if manifest.path?.all s.accepts then none else some .watch := by
  unfold astray
  rw [h]

theorem target?_of_ok (h : s.manifest = .ok manifest) :
    s.target? = manifest.path?.filter s.accepts := by
  rw [target?, h]
  rfl

end

theorem isOk_iff : s.manifest.isOk = true ↔ ∃ manifest, s.manifest = .ok manifest := by
  cases s.manifest <;> simp [Except.isOk, Except.toBool]

theorem isOk_eq_false_iff :
    s.manifest.isOk = false ↔ ∃ failure, s.manifest = .error failure := by
  cases s.manifest <;> simp [Except.isOk, Except.toBool]

theorem isOk_of_target? {path : Path} (h : s.target? = some path) : s.manifest.isOk = true := by
  unfold target? at h
  cases hm : s.manifest with
  | error failure => simp [hm, Except.toOption] at h
  | ok manifest => rfl

/-- What leads to the real manifest does not fail. -/
theorem astray_of_target? {path : Path} (h : s.target? = some path) : s.astray = none := by
  obtain ⟨manifest, hm⟩ := isOk_iff.1 (isOk_of_target? h)
  rw [target?_of_ok hm, Option.filter_eq_some_iff] at h
  rw [astray_of_ok hm, h.1]
  exact if_pos h.2

variable (s)

/-! ### Documents -/

/-- The path of a visible source. -/
def Visible (path : Path) : Prop :=
  ∃ doc ∈ s.documents, doc.path = path ∧ s.config.isSource path = true

/-- What rendering everything by an index sends to a path. -/
def drawn (index : Index) (path : Path) : List Decoration :=
  (lastFor path (view s.tree.realPath s.config index .all s.documents)).getD []

/-- Whether taking in a report concerns the document at a path. -/
def touches (index : Index) (path : Path) (unit : ReportUnit) : Bool :=
  (Affected.paths (index.affected unit.sourceKey
    (unit.read (.still s.tree) s.config).usages)).includes (s.tree.realPath path)

variable {s}

theorem drawn_alike {i j : Index} (h : i.Alike j) {path : Path} (visible : s.Visible path) :
    (s.drawn i path).Perm (s.drawn j path) := by
  obtain ⟨doc, -, -, hs⟩ := visible
  rw [drawn, drawn, lastFor_view_all hs, lastFor_view_all hs]
  cases (s.documents.filter (·.path = path)).getLast? with
  | none => exact .refl _
  | some e => exact decorations_alike h _ e

/-- A report that does not concern a document leaves what it is drawn. -/
theorem drawn_apply {index : Index} {path : Path} {unit : ReportUnit}
    (h : s.touches index path unit = false) :
    s.drawn (s.takeIn [unit] index) path = s.drawn index path := by
  rw [drawn, drawn]
  exact congrArg (·.getD []) (lastFor_view_apply h)

/-! ### Reports of distinct keys -/

/-- No two of the units share a source key. -/
def Apart (units : List ReportUnit) : Prop :=
  ∀ u ∈ units, ∀ v ∈ units, u.sourceKey = v.sourceKey → u = v

theorem Apart.mono {units more : List ReportUnit} (h : Apart more) (hs : ∀ u ∈ units, u ∈ more) :
    Apart units := fun u hu v hv => h u (hs u hu) v (hs v hv)

theorem takeIn_cons (unit : ReportUnit) (rest : List ReportUnit) (index : Index) :
    s.takeIn (unit :: rest) index = s.takeIn rest (s.takeIn [unit] index) := rfl

theorem takeIn_alike {i j : Index} (h : i.Alike j) (units : List ReportUnit) :
    (s.takeIn units i).Alike (s.takeIn units j) := by
  induction units generalizing i j with
  | nil => exact h
  | cons unit rest ih => exact ih (h.apply _ _)

theorem takeIn_perm {units units' : List ReportUnit} (h : units.Perm units') (apart : Apart units)
    (index : Index) : (s.takeIn units index).Alike (s.takeIn units' index) := by
  induction h generalizing index with
  | nil => exact .refl index
  | cons unit _ ih => exact ih (apart.mono fun u hu => List.mem_cons_of_mem unit hu) _
  | swap u v rest =>
    rw [takeIn_cons, takeIn_cons, takeIn_cons u, takeIn_cons v]
    refine takeIn_alike ?_ rest
    by_cases hk : v.sourceKey = u.sourceKey
    · obtain rfl := apart v (by simp) u (by simp) hk
      exact .refl _
    · exact .swap hk _ _ index
  | trans first _ ih ih' =>
    exact (ih apart index).trans (ih' (apart.mono fun u hu => first.mem_iff.2 hu) index)

/-- More affected names concern more documents. -/
theorem touches_mono {i j : Index} {path : Path} {unit : ReportUnit}
    (h : ∀ u, u ∈ i.usagesOf unit.sourceKey → u ∈ j.usagesOf unit.sourceKey ∨
      u ∈ (unit.read (.still s.tree) s.config).usages)
    (touched : s.touches i path unit = true) : s.touches j path unit = true := by
  have names : ∀ name,
      name ∈ i.affected unit.sourceKey (unit.read (.still s.tree) s.config).usages →
      name ∈ j.affected unit.sourceKey (unit.read (.still s.tree) s.config).usages := by
    intro name hn
    obtain ⟨u, hu, rfl⟩ := Index.mem_affected.1 hn
    exact Index.mem_affected.2 ⟨u, hu.elim (h u) .inr, rfl⟩
  simp only [touches, Affected.includes, Bool.or_eq_true, List.contains_iff_mem,
    Option.any_eq_true] at touched ⊢
  rcases touched with touched | ⟨name, hf, hn⟩
  · exact .inl (names _ touched)
  · exact .inr ⟨name, hf, names name hn⟩

/-- Once a report is in, taking it in again concerns nobody else. -/
theorem touches_self {index : Index} {path : Path} {unit : ReportUnit}
    (h : s.touches (s.takeIn [unit] index) path unit = true) : s.touches index path unit = true :=
  touches_mono (fun _ hu => .inr (Index.mem_usagesOf_apply_self.1 hu)) h

/-- Taking in a report does not change whom a report of another key concerns. -/
theorem touches_other {index : Index} {path : Path} {unit other : ReportUnit}
    (h : other.sourceKey ≠ unit.sourceKey) :
    s.touches (s.takeIn [unit] index) path other = s.touches index path other := by
  rw [Bool.eq_iff_iff]
  exact ⟨touches_mono fun _ hu => .inl ((Index.mem_usagesOf_apply_of_ne h).1 hu),
    touches_mono fun _ hu => .inl ((Index.mem_usagesOf_apply_of_ne h).2 hu)⟩

/-- A document that was concerned by one of the remaining reports, or would be, was concerned by one
of them before the first was taken in. -/
theorem any_touches_cons {index : Index} {path : Path} {unit : ReportUnit}
    {rest : List ReportUnit} (apart : Apart (unit :: rest)) :
    (s.touches index path unit || rest.any (s.touches (s.takeIn [unit] index) path)) =
      (unit :: rest).any (s.touches index path) := by
  rw [List.any_cons]
  cases ht : s.touches index path unit with
  | true => rfl
  | false =>
    simp only [Bool.false_or]
    rw [Bool.eq_iff_iff]
    simp only [List.any_eq_true]
    refine exists_congr fun other => and_congr_right fun ho => ?_
    by_cases hk : other.sourceKey = unit.sourceKey
    · obtain rfl := apart other (List.mem_cons_of_mem _ ho) unit List.mem_cons_self hk
      rw [ht]
      exact iff_of_false (fun h => absurd (touches_self h) (by simp [ht])) (by simp)
    · rw [touches_other hk]

/-- Reports that do not concern a document leave what it is drawn. -/
theorem drawn_takeIn {index : Index} {path : Path} {units : List ReportUnit} (apart : Apart units)
    (h : units.any (s.touches index path) = false) :
    s.drawn (s.takeIn units index) path = s.drawn index path := by
  induction units generalizing index with
  | nil => rfl
  | cons unit rest ih =>
    rw [← any_touches_cons apart, Bool.or_eq_false_iff] at h
    rw [takeIn_cons, ih (apart.mono fun u hu => List.mem_cons_of_mem unit hu) h.2,
      drawn_apply h.1]

end Scene

end StackUsage

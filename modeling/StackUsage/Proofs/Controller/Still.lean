import StackUsage.Proofs.Controller.Attach

/-! Handling one route on a still tree in which the manifest is found and the service refuses none
of the watches that it calls for. Nothing fails then, and each route comes to one thing: the
location to a watch on the real manifest, the manifest to a watch on every report that it names, and
a report to its records. A route of an old generation comes to nothing. -/

namespace StackUsage.Controller

open WatchService (Lawful Holding Accepts)

variable {σ : Type} [WatchService σ] {sound : σ → Prop}

/-! ### Granted watches -/

theorem sound_releaseAll (law : Lawful σ sound) (ids : List Nat) {s : σ} (hs : sound s) :
    sound (releaseAll ids s) := by
  induction ids generalizing s with
  | nil => exact hs
  | cons id rest ih => exact ih (law.sound_release id hs)

theorem attach_accepted (law : Lawful σ sound) {path : Path} (accepts : Accepts σ sound path)
    (t : Tree) (route : Route) {c : Controller σ} (hs : sound c.service) :
    ∃ id s notices, c.attach t path route = (c.heard s notices, .ok (.new id)) ∧ sound s := by
  obtain ⟨id, -, he⟩ | ⟨refusal, ho, -⟩ := attach_cases t path route c
  · exact ⟨id, _, _, he, law.sound_watch t path route hs⟩
  · obtain ⟨id, hid⟩ := accepts t route c.service hs
    cases ho.symm.trans hid

theorem attachReports_accepted (law : Lawful σ sound) (generation : Nat) {units : List ReportUnit}
    (accepts : ∀ unit ∈ units, Accepts σ sound unit.reportPath) (d : Disk) {c : Controller σ}
    (hs : sound c.service) : (attachReports d generation c units).2.map (·.2) = units := by
  induction units generalizing d c with
  | nil => rfl
  | cons unit rest ih =>
    obtain ⟨id, s, notices, he, hs'⟩ :=
      attach_accepted law (accepts unit (by simp)) (d 0) (.report generation unit) hs
    rw [attachReports, he]
    exact congrArg (unit :: ·)
      (ih (fun u hu => accepts u (List.mem_cons_of_mem _ hu)) (d.after 1) hs')

/-! ### What stays -/

/-- The same workspace, a sound service, and no generation has gone back. -/
structure Onward (sound : σ → Prop) (c c' : Controller σ) : Prop where
  root : c'.root = c.root
  config : c'.config = c.config
  documents : c'.documents = c.documents
  sound : sound c'.service
  targetGeneration : c.targetGeneration ≤ c'.targetGeneration
  reportGeneration : c.reportGeneration ≤ c'.reportGeneration

omit [WatchService σ] in
theorem Onward.trans {c₁ c₂ c₃ : Controller σ} (h : Onward sound c₁ c₂) (h' : Onward sound c₂ c₃) :
    Onward sound c₁ c₃ :=
  ⟨h'.root.trans h.root, h'.config.trans h.config, h'.documents.trans h.documents, h'.sound,
    Nat.le_trans h.targetGeneration h'.targetGeneration,
    Nat.le_trans h.reportGeneration h'.reportGeneration⟩

variable {c : Controller σ}

omit [WatchService σ] in
theorem onward_heard {s : σ} (hs : sound s) (notices : List Notice) :
    Onward sound c (c.heard s notices) := ⟨rfl, rfl, rfl, hs, Nat.le_refl _, Nat.le_refl _⟩

theorem resetTiers_eq (law : Lawful σ sound) (hs : sound c.service) :
    ∃ s notices, c.resetTiers =
      { c.heard s notices with
        index := .empty
        targetWatch := .empty
        reportWatches := .empty
        target := none
        targetGeneration := c.targetGeneration + 1
        reportGeneration := c.reportGeneration + 1
        renderAll := true } ∧ sound s := by
  exact ⟨_, _, resetTiers_heard c, sound_releaseAll law (released c.reportWatches.items)
    (sound_releaseAll law (released c.targetWatch.current.toList) hs)⟩

theorem forget_eq (law : Lawful σ sound) (hs : sound c.service) :
    ∃ s notices, c.dropReports.clearIndex =
      { c.heard s notices with
        index := .empty
        reportWatches := .empty
        reportGeneration := c.reportGeneration + 1
        renderAll := true } ∧ sound s := by
  refine ⟨_, (released c.reportWatches.items).map .released ++ [.cleared], ?_,
    sound_releaseAll law (released c.reportWatches.items) hs⟩
  rw [dropReports_eq]
  simp only [clearIndex, note, heard, List.append_assoc]

/-! ### Routes on a still tree -/

/-- The manifest is found on the tree, the units are those that it names, or none if it cannot be
read, and the service refuses none of the watches that this calls for. -/
structure Found (sound : σ → Prop) (t : Tree) (root : Path) (config : Config)
    (manifest : Resolution) (units : List ReportUnit) : Prop where
  law : Lawful σ sound
  resolved : Resolution.resolve t (Snapshot.location root config) = .ok manifest
  named : (Snapshot.unitsOf (.still t) config manifest).toOption.getD [] = units
  target : ∀ target, manifest.path? = some target → Accepts σ sound target
  reports : ∀ unit ∈ units, Accepts σ sound unit.reportPath

/-- A route of an old generation. -/
def Ignored (c : Controller σ) : Route → Prop
  | .location => False
  | .target generation => generation ≠ c.targetGeneration
  | .report generation _ => generation ≠ c.reportGeneration

omit [WatchService σ] in
theorem Ignored.ne_report {c : Controller σ} {route : Route} (h : Ignored c route)
    (unit : ReportUnit) : route ≠ .report c.reportGeneration unit := by
  rintro rfl
  exact h rfl

/-- Attached under a generation below the given ones. -/
def Before (target report : Nat) : Route → Prop
  | .location => False
  | .target generation => generation < target
  | .report generation _ => generation < report

theorem Before.mono {target report target' report' : Nat} {route : Route}
    (h : Before target report route) (ht : target ≤ target') (hr : report ≤ report') :
    Before target' report' route := by
  cases route with
  | location => exact h
  | target generation => exact Nat.lt_of_lt_of_le h ht
  | report generation unit => exact Nat.lt_of_lt_of_le h hr

omit [WatchService σ] in
theorem Before.ignored {c : Controller σ} {route : Route}
    (h : Before c.targetGeneration c.reportGeneration route) : Ignored c route := by
  cases route with
  | location => exact h
  | target generation => exact Nat.ne_of_lt h
  | report generation unit => exact Nat.ne_of_lt h

theorem dispatch_ignored {route : Route} (h : Ignored c route) (d : Disk) :
    c.dispatch d route = ⟨c.note [.dispatched route], [], none⟩ := by
  cases route with
  | location => cases h
  | target generation => exact if_neg h
  | report generation unit => exact if_neg h

section

variable {t : Tree} {manifest : Resolution} {units : List ReportUnit}

theorem dispatch_location_missing (found : Found sound t c.root c.config manifest units)
    (hs : sound c.service) (hm : manifest.path? = none) :
    ∃ c', c.dispatch (.still t) .location = ⟨c', [], none⟩ ∧ Onward sound c c' ∧
      c'.targetGeneration = c.targetGeneration + 1 ∧
      c'.reportGeneration = c.reportGeneration + 1 ∧ c'.target = none ∧ c'.index = .empty ∧
      c'.renderAll = true ∧ c'.reportWatches.items = [] := by
  have hr : Resolution.resolve t (c.note [.dispatched .location]).location = .ok manifest :=
    found.resolved
  obtain ⟨s, notices, he, hs'⟩ := resetTiers_eq (c := c.note [.dispatched .location]) found.law hs
  change ∃ c', updateTarget _ _ = _ ∧ _
  unfold updateTarget
  simp only [Disk.still_apply, hr, hm, he]
  exact ⟨_, rfl, ⟨rfl, rfl, rfl, hs', Nat.le_succ _, Nat.le_succ _⟩, rfl, rfl, rfl, rfl, rfl, rfl⟩

theorem watchTarget_accepted (law : Lawful σ sound) {target : Path}
    (accepts : Accepts σ sound target) (hs : sound c.service) (he : c.targetWatch = .empty) :
    ∃ id s notices, c.watchTarget t target =
      ⟨{ c.heard s notices with targetWatch := ⟨some (.new id)⟩, target := some target },
        [.target c.targetGeneration], none⟩ ∧ sound s := by
  obtain ⟨id, s, notices, ha, hs'⟩ :=
    attach_accepted law accepts t (.target c.targetGeneration) hs
  have empty : (c.heard s notices).targetWatch.current.toList = [] :=
    congrArg (·.current.toList) he
  refine ⟨id, s, notices, ?_, hs'⟩
  unfold watchTarget
  rw [ha]
  dsimp only [holdTarget, setTargetWatch, Slot.set]
  rw [empty, disposeAll_nil]

theorem dispatch_location (found : Found sound t c.root c.config manifest units)
    (hs : sound c.service) {target : Path} (hm : manifest.path? = some target) :
    ∃ c', c.dispatch (.still t) .location = ⟨c', [.target c'.targetGeneration], none⟩ ∧
      Onward sound c c' ∧ c'.targetGeneration = c.targetGeneration + 1 ∧
      c'.reportGeneration = c.reportGeneration ∧ c'.target = some target := by
  have hr : Resolution.resolve t (c.note [.dispatched .location]).location = .ok manifest :=
    found.resolved
  have drop : Onward sound c (c.note [.dispatched .location]).dropTarget := by
    rw [dropTarget_eq]
    exact ⟨rfl, rfl, rfl, sound_releaseAll found.law _ hs, Nat.le_succ _, Nat.le_refl _⟩
  have kept : (c.note [.dispatched .location]).dropTarget.reportGeneration =
      c.reportGeneration := by rw [dropTarget_eq]; rfl
  obtain ⟨id, s, notices, he, hs'⟩ :=
    watchTarget_accepted (t := t) found.law (found.target target hm) drop.sound rfl
  change ∃ c', updateTarget _ _ = _ ∧ _
  unfold updateTarget
  simp only [Disk.still_apply, hr, hm, he]
  exact ⟨_, rfl, drop.trans ⟨rfl, rfl, rfl, hs', Nat.le_refl _, Nat.le_refl _⟩, rfl, kept, rfl⟩

/-- The handles of the reports are those of the units in their order, and their watches are live. -/
def Follows (sound : σ → Prop) (units : List ReportUnit) (c : Controller σ) : Prop :=
  ∃ held others, c.reportWatches.items = held.map (·.1) ∧ held.map (·.2) = units ∧
    Holding sound others (reportPart c.reportGeneration held) c.service

/-- The watches of the reports of the units are held, and nothing else has changed. -/
structure Following (sound : σ → Prop) (units : List ReportUnit) (c c' : Controller σ) : Prop where
  onward : Onward sound c c'
  targetGeneration : c'.targetGeneration = c.targetGeneration
  reportGeneration : c'.reportGeneration = c.reportGeneration
  target : c'.target = c.target
  index : c'.index = c.index
  renderAll : c'.renderAll = c.renderAll
  follows : Follows sound units c'

theorem followManifest_found (found : Found sound t c.root c.config manifest units)
    (hs : sound c.service) (he : c.reportWatches.items = []) :
    ∃ c', c.followManifest (.still t) = ⟨c', units.map (.report c'.reportGeneration), none⟩ ∧
      Following sound units c c' := by
  have hr : Resolution.resolve t c.location = .ok manifest := found.resolved
  have named := found.named
  unfold followManifest
  simp only [Disk.still_apply, hr]
  cases hu : Snapshot.unitsOf (.still t) c.config manifest with
  | error failure =>
    rw [hu] at named
    subst named
    exact ⟨_, rfl, onward_heard hs _, rfl, rfl, rfl, rfl, rfl, [], _, he, rfl, .nil hs⟩
  | ok us =>
    rw [hu] at named
    change us = units at named
    subst named
    obtain ⟨hg, -⟩ := granted_attachReports found.law c.reportGeneration us (.still t) (.nil hs)
    have names := attachReports_accepted found.law c.reportGeneration found.reports (.still t) hs
    simp only [Disk.after_still, watchReports]
    generalize attachReports (.still t) c.reportGeneration c us = attached at hg names
    obtain ⟨c₁, held⟩ := attached
    obtain ⟨s, notices, rfl⟩ := hg.heard
    have empty : (c.heard s notices).reportWatches.items = [] := he
    dsimp only [holdReports, setReportWatches, Batch.set] at names ⊢
    rw [empty, disposeAll_nil]
    have queue : (held.map fun x => Route.report c.reportGeneration x.2) =
        us.map (.report c.reportGeneration) := by
      rw [← names, List.map_map]
      rfl
    rw [queue]
    exact ⟨_, rfl, ⟨rfl, rfl, rfl, hg.holding.sound, Nat.le_refl _, Nat.le_refl _⟩, rfl, rfl, rfl,
      rfl, rfl, held, _, rfl, names, hg.holding⟩

/-- What the reports brought is forgotten, the manifest is read, and each unit that it names has its
report watched and waits in the queue. -/
theorem dispatch_target (found : Found sound t c.root c.config manifest units)
    (hs : sound c.service) :
    ∃ c₁ c', c.dispatch (.still t) (.target c.targetGeneration) =
        ⟨c', units.map (.report c'.reportGeneration), none⟩ ∧
      Onward sound c c₁ ∧ c₁.targetGeneration = c.targetGeneration ∧
      c₁.target = c.target ∧ c₁.index = .empty ∧ c₁.renderAll = true ∧
      Following sound units c₁ c' := by
  obtain ⟨s, notices, hf, hs'⟩ := forget_eq found.law
    (c := c.note [.dispatched (.target c.targetGeneration)]) hs
  have hd : c.dispatch (.still t) (.target c.targetGeneration) =
      (c.note [.dispatched (.target c.targetGeneration)]).dropReports.clearIndex.followManifest
        (.still t) := if_pos rfl
  generalize (c.note [.dispatched (.target c.targetGeneration)]).dropReports.clearIndex = c₁
    at hf hd
  have same : Onward sound c c₁ := by
    rw [hf]
    exact ⟨rfl, rfl, rfl, hs', Nat.le_refl _, Nat.le_succ _⟩
  have hc : Found sound t c₁.root c₁.config manifest units := by rwa [same.root, same.config]
  obtain ⟨c', he, following⟩ := followManifest_found hc same.sound (by rw [hf]; rfl)
  subst hf
  exact ⟨_, c', hd.trans he, same, rfl, rfl, rfl, rfl, following⟩

/-- The records of a report go into the index, and everything else but the journal stays. -/
theorem dispatch_report (unit : ReportUnit) (d : Disk) (hs : sound c.service) :
    ∃ c', c.dispatch d (.report c.reportGeneration unit) = ⟨c', [], none⟩ ∧ Onward sound c c' ∧
      c'.index = c.index.apply unit.sourceKey (unit.read d c.config).usages ∧
      c'.targetGeneration = c.targetGeneration ∧ c'.reportGeneration = c.reportGeneration ∧
      c'.target = c.target ∧ c'.renderAll = c.renderAll ∧ c'.reportWatches = c.reportWatches ∧
      c'.service = c.service := by
  refine ⟨_, if_pos rfl, ?_⟩
  unfold processReport
  split
  all_goals
    exact ⟨⟨rfl, rfl, rfl, hs, Nat.le_refl _, Nat.le_refl _⟩, rfl, rfl, rfl, rfl, rfl, rfl, rfl⟩

end

end StackUsage.Controller

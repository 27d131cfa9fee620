import StackUsage.Proofs.Controller.Display
import StackUsage.Proofs.Controller.Outline

/-! A pass comes to what its outline foretells. On a still tree, with a watch service that refuses
by the path alone, each service of a route is a step of the outline: every outcome of a handler has
its step. When the queue is empty, and what was put off is rendered, the controller has the index,
the real manifest and the watches that were foretold, its visible sources show what was foretold,
and the failure is of the kind that was. -/

namespace StackUsage.Controller

open Annotation
open WatchService (Lawful Holding)

variable {σ : Type} [WatchService σ] {sound : σ → Prop}

/-! ### The outline of a controller -/

/-- The outline of a controller that watches the reports of the units. -/
def outline (units : List ReportUnit) (c : Controller σ) : Outline where
  index := c.index
  target := c.target
  units
  targetGeneration := c.targetGeneration
  reportGeneration := c.reportGeneration
  renderAll := c.renderAll
  shown := c.shown
  queue := c.pending

/-- The controller works on the scene, and holds this watch on the manifest's location. -/
structure Plays (s : Scene) (slot : Slot Handle) (c : Controller σ) : Prop where
  root : c.root = s.root
  config : c.config = s.config
  documents : c.documents = s.documents
  locationWatch : c.locationWatch = slot

/-- The service refuses by the path alone, as the scene says. -/
def Impartial (sound : σ → Prop) (s : Scene) : Prop :=
  ∀ (path : Path) (route : Route) (service : σ), sound service →
    (WatchService.watch s.tree path route service).outcome.isOk = s.accepts path

section

variable {s : Scene} {slot : Slot Handle} {c c' c₁ : Controller σ} {units : List ReportUnit}

omit [WatchService σ] in
theorem Plays.resolved (h : Plays s slot c) :
    Resolution.resolve s.tree c.location = s.manifest := by
  rw [location, h.root, h.config]
  rfl

omit [WatchService σ] in
theorem shown_congr (h : c'.sent = c.sent) : c'.shown = c.shown := by
  funext path
  rw [shown, h, ← shown]

omit [WatchService σ] in
/-- If no document was sent anything, only the other fields may differ. -/
theorem outline_eq (units : List ReportUnit) (h : c'.sent = c.sent) :
    outline units c' = ⟨c'.index, c'.target, units, c'.targetGeneration, c'.reportGeneration,
      c'.renderAll, c.shown, c'.pending⟩ := by
  rw [outline, shown_congr h]

omit [WatchService σ] in
theorem outline_warn (warnings : List Warning) :
    outline units (c.warn warnings) = outline units c :=
  outline_eq units (sameDisplay_warn warnings c).sent

/-! ### The scene stays -/

namespace Plays

omit [WatchService σ] in
theorem heard (h : Plays s slot c) (state : σ) (notices : List Notice) :
    Plays s slot (c.heard state notices) := { h with }

omit [WatchService σ] in
theorem warn (h : Plays s slot c) (warnings : List Warning) : Plays s slot (c.warn warnings) :=
  { h with }

omit [WatchService σ] in
theorem withPending (h : Plays s slot c) (routes : List Route) :
    Plays s slot (c.withPending routes) := { h with }

theorem dropTarget (h : Plays s slot c) : Plays s slot c.dropTarget := by
  rw [dropTarget_eq]
  exact { h with }

theorem forget (h : Plays s slot c) : Plays s slot c.dropReports.clearIndex := by
  rw [dropReports_eq]
  exact { h with }

theorem resetTiers (h : Plays s slot c) : Plays s slot c.resetTiers := { h.dropTarget.forget with }

theorem attach (h : Plays s slot c) (t : Tree) (path : Path) (route : Route) :
    Plays s slot (c.attach t path route).1 := by
  obtain ⟨state, notices, he⟩ := attach_heard t path route c
  rw [he]
  exact h.heard state notices

theorem holdTarget (h : Plays s slot c) (target : Path) (handle : Handle) :
    Plays s slot (c.holdTarget target handle) := by
  rw [Controller.holdTarget, setTargetWatch, disposeAll_eq]
  exact { h with }

theorem attachReports (h : Plays s slot c) (d : Disk) (generation : Nat)
    (named : List ReportUnit) : Plays s slot (attachReports d generation c named).1 := by
  induction named generalizing d c with
  | nil => exact h
  | cons unit rest ih =>
    have ha := h.attach (d 0) unit.reportPath (.report generation unit)
    rw [Controller.attachReports]
    split
    · next hq =>
      rw [hq] at ha
      exact ih ha _
    · next hq =>
      rw [hq] at ha
      exact ih (ha.warn _) _

theorem watchReports (h : Plays s slot c) (d : Disk) (named : List ReportUnit) :
    Plays s slot (c.watchReports d named).controller := by
  have attached := h.attachReports d c.reportGeneration named
  rw [Controller.watchReports, holdReports, setReportWatches]
  dsimp only
  rw [disposeAll_eq]
  exact { attached with }

end Plays

/-! ### What handlers do to the outline -/

theorem dropTarget_attach (t : Tree) (target : Path) (route : Route) (c : Controller σ) :
    ∃ s notices, (c.dropTarget.attach t target route).1 =
      { c.heard s notices with
        targetWatch := .empty
        targetGeneration := c.targetGeneration + 1 } := by
  obtain ⟨s, notices, he⟩ := attach_heard t target route c.dropTarget
  rw [he, dropTarget_eq]
  exact ⟨s, (released c.targetWatch.current.toList).map .released ++ notices, by
    simp only [heard, List.append_assoc]⟩

/-- Asking for the watch on the next real manifest changes its generation alone. -/
theorem outline_dropTarget_attach (t : Tree) (target : Path) (units : List ReportUnit)
    (c : Controller σ) :
    outline units (c.dropTarget.attach t target (.target (c.targetGeneration + 1))).1 =
      { outline units c with targetGeneration := c.targetGeneration + 1 } := by
  have same := (sameDisplay_dropTarget c).trans
    (sameDisplay_attach t target (.target (c.targetGeneration + 1)) c.dropTarget)
  rw [outline_eq units same.sent]
  obtain ⟨s, notices, he⟩ := dropTarget_attach t target (.target (c.targetGeneration + 1)) c
  rw [he]
  rfl

theorem outline_holdTarget (target : Path) (handle : Handle) (units : List ReportUnit)
    (c : Controller σ) :
    outline units (c.holdTarget target handle) =
      { outline units c with target := some target } := by
  have sent : (c.holdTarget target handle).sent = c.sent :=
    (sameDisplay_disposeAll (c.targetWatch.set handle).2 c).sent
  rw [outline_eq units sent, holdTarget, setTargetWatch, disposeAll_eq]
  rfl

theorem outline_resetTiers (units : List ReportUnit) (c : Controller σ) :
    outline [] c.resetTiers =
      { outline units c with
        index := .empty
        target := none
        units := []
        targetGeneration := c.targetGeneration + 1
        reportGeneration := c.reportGeneration + 1
        renderAll := true } := by
  rw [outline_eq [] (putOff_resetTiers c).sent, resetTiers, dropReports_eq, dropTarget_eq]
  rfl

theorem outline_forget (left units : List ReportUnit) (c : Controller σ) :
    outline left c.dropReports.clearIndex =
      { outline units c with
        index := .empty
        units := left
        reportGeneration := c.reportGeneration + 1
        renderAll := true } := by
  have sent : c.dropReports.clearIndex.sent = c.sent :=
    (putOff_clearIndex c.dropReports).sent.trans (sameDisplay_dropReports c).sent
  rw [outline_eq left sent, dropReports_eq]
  rfl

theorem outline_watchReports (law : Lawful σ sound) {others own : List LiveWatch}
    (h : Holding sound others own c.service) (d : Disk) (named units : List ReportUnit) :
    outline units (c.watchReports d named).controller = outline units c := by
  have sent : (c.watchReports d named).controller.sent = c.sent :=
    (sameDisplay_disposeAll _ _).sent.trans (sameDisplay_attachReports named d _ c).sent
  obtain ⟨s, notices, he⟩ :=
    (granted_attachReports law c.reportGeneration named d h).1.heard
  rw [outline_eq units sent, watchReports]
  dsimp only
  rw [he, holdReports, setReportWatches, disposeAll_eq]
  rfl

/-! ### One report -/

omit [WatchService σ] in
theorem shown_publish (plays : Plays s slot c) (affected : Affected) (path : Path) :
    (c.publish (.still s.tree) affected).shown path =
      ((lastFor path (view s.tree.realPath s.config c.index affected s.documents)).or
        (lastFor path c.sent)).getD [] := by
  have placed : Placed s.tree.realPath s.documents (.still s.tree) := fun _ _ _ => rfl
  rw [shown, publish, sent_announce, lastFor_append, rendered, plays.config, plays.documents,
    publish_eq_view placed]

omit [WatchService σ] in
theorem shown_publish_of_includes (plays : Plays s slot c) {affected : Affected} {path : Path}
    (visible : s.Visible path) (h : affected.includes (s.tree.realPath path) = true) :
    (c.publish (.still s.tree) affected).shown path = s.drawn c.index path := by
  obtain ⟨doc, hd, rfl, hs⟩ := visible
  obtain ⟨e, -, -, he⟩ := exists_lastFor_view s.tree.realPath c.index hd hs
  rw [shown_publish plays, lastFor_view_of_includes h, Scene.drawn, he]
  rfl

omit [WatchService σ] in
theorem shown_publish_of_excludes (plays : Plays s slot c) {affected : Affected} {path : Path}
    (h : affected.includes (s.tree.realPath path) = false) :
    (c.publish (.still s.tree) affected).shown path = c.shown path := by
  rw [shown_publish plays, lastFor_view_of_excludes h]
  rfl

omit [WatchService σ] in
/-- A report is shown at once to a document that it concerns, unless everything will be rendered. -/
theorem shown_processReport (plays : Plays s slot c) (unit : ReportUnit) {path : Path}
    (visible : s.Visible path) :
    (c.processReport (.still s.tree) unit).shown path =
      if c.renderAll = false ∧ s.touches c.index path unit = true then
        s.drawn (s.takeIn [unit] c.index) path
      else c.shown path := by
  have applied := sent_applyReport unit (unit.read (.still s.tree) c.config) c
  unfold processReport
  dsimp only
  split
  · next hr =>
    rw [shown, applied, ← shown, if_neg (by simp [hr])]
  · next hr =>
    have plays' : Plays s slot (c.applyReport unit (unit.read (.still s.tree) c.config)) :=
      { plays with }
    have index : (c.applyReport unit (unit.read (.still s.tree) c.config)).index =
        s.takeIn [unit] c.index := by
      rw [plays.config]
      rfl
    have unsent : (c.applyReport unit (unit.read (.still s.tree) c.config)).shown = c.shown :=
      shown_congr applied
    rw [Disk.after_still, plays.config] at *
    by_cases touched : s.touches c.index path unit = true
    · rw [if_pos ⟨by simpa using hr, touched⟩, ← index]
      exact shown_publish_of_includes plays' visible touched
    · rw [if_neg fun h => touched h.2, ← unsent]
      exact shown_publish_of_excludes plays' (Bool.eq_false_iff.2 touched)

/-! ### What the service grants -/

theorem accepts_of_granted (impartial : Impartial sound s) {path : Path} {route : Route}
    {handle : Handle} (hs : sound c.service)
    (ha : c.attach s.tree path route = (c₁, .ok handle)) : s.accepts path = true := by
  rw [← impartial path route c.service hs]
  obtain ⟨id, ho, he⟩ | ⟨refusal, ho, he⟩ := attach_cases s.tree path route c
  · rw [ho]
    rfl
  · cases he.symm.trans ha

theorem accepts_of_refused (impartial : Impartial sound s) {path : Path} {route : Route}
    {failure : Failure} (hs : sound c.service)
    (ha : c.attach s.tree path route = (c₁, .error failure)) :
    s.accepts path = false ∧ failure.kind = .watch := by
  rw [← impartial path route c.service hs]
  obtain ⟨id, ho, he⟩ | ⟨refusal, ho, he⟩ := attach_cases s.tree path route c
  · cases he.symm.trans ha
  · cases he.symm.trans ha
    rw [ho]
    exact ⟨rfl, rfl⟩

/-- The units whose reports may be watched keep their order. -/
theorem attachReports_filter (law : Lawful σ sound) (impartial : Impartial sound s)
    (generation : Nat) (us : List ReportUnit) {c : Controller σ} (hs : sound c.service) :
    (attachReports (.still s.tree) generation c us).2.map (·.2) =
      us.filter fun unit => s.accepts unit.reportPath := by
  induction us generalizing c with
  | nil => rfl
  | cons unit rest ih =>
    have hs' := law.sound_watch s.tree unit.reportPath (.report generation unit) hs
    rw [attachReports, Disk.still_apply]
    obtain ⟨id, -, he⟩ | ⟨refusal, -, he⟩ :=
      attach_cases s.tree unit.reportPath (.report generation unit) c
    · rw [he]
      simp only [List.filter_cons, accepts_of_granted impartial hs he, if_true]
      exact congrArg (unit :: ·) (ih hs')
    · rw [he]
      simp only [List.filter_cons, (accepts_of_refused impartial hs he).1]
      exact ih hs'

omit [WatchService σ] in
theorem Ignored.unitOf {route : Route} (h : Ignored c route) :
    route.unitOf c.reportGeneration = none := by
  cases route with
  | report generation unit => exact if_neg h
  | _ => rfl

omit [WatchService σ] in
theorem Ignored.ne_target {route : Route} (h : Ignored c route) :
    route ≠ .target c.targetGeneration := by
  rintro rfl
  exact h rfl

omit [WatchService σ] in
theorem Ignored.ne_location {route : Route} (h : Ignored c route) : route ≠ .location := by
  rintro rfl
  exact h

/-! ### Serving one route -/

/-- Handling the head of a queue keeps the watches in order, stays on the scene and is a step of the
outline. -/
def Traces (sound : σ → Prop) (others : List LiveWatch) (slot : Slot Handle) (s : Scene)
    (held : List (Handle × ReportUnit)) (route : Route) (rest : List Route) (c : Controller σ)
    (handled : Handled σ) : Prop :=
  ∃ held', Tended sound others (rest ++ handled.attached) held' handled.controller ∧
    Plays s slot handled.controller ∧
    Outline.Step s ((outline (held.map (·.2)) c).withQueue (route :: rest))
      (handled.failure.map Failure.kind)
      ((outline (held'.map (·.2)) handled.controller).withQueue (rest ++ handled.attached))

section

variable {others : List LiveWatch} {held held' : List (Handle × ReportUnit)} {route : Route}
  {rest : List Route} {manifest : Resolution} {target : Path} {failure : Failure}

/-- A handler that attaches nothing. -/
theorem traces_alone {result : Option Failure} (tended : Tended sound others rest held' c')
    (plays : Plays s slot c')
    (step : Outline.Step s ((outline (held.map (·.2)) c).withQueue (route :: rest))
      (result.map Failure.kind) ((outline (held'.map (·.2)) c').withQueue rest)) :
    Traces sound others slot s held route rest c ⟨c', [], result⟩ := by
  refine ⟨held', ?_, plays, ?_⟩
  · rw [List.append_nil]
    exact tended
  · rw [List.append_nil]
    exact step

theorem traces_missing (law : Lawful σ sound) (h : Kept sound others rest held c)
    (plays : Plays s slot c) (hm : s.manifest = .ok manifest) (hp : manifest.path? = none) :
    Traces sound others slot s held .location rest c ⟨c.resetTiers, [], none⟩ := by
  have ht : s.target? = none := by
    rw [Scene.target?_of_ok hm, hp]
    rfl
  have hf : s.astray = none := by
    rw [Scene.astray_of_ok hm, hp]
    rfl
  refine traces_alone (tended_resetTiers law h) plays.resetTiers ?_
  rw [List.map_nil, outline_resetTiers (held.map (·.2)), Option.map_none, ← hf]
  exact .reset rfl (Scene.isOk_iff.2 ⟨_, hm⟩) ht (Nat.lt_succ_self _) (Nat.lt_succ_self _)

theorem traces_moved (law : Lawful σ sound) (impartial : Impartial sound s)
    (h : Kept sound others rest held c) (plays : Plays s slot c) {handle : Handle}
    (hm : s.manifest = .ok manifest) (hp : manifest.path? = some target)
    (ha : c.dropTarget.attach s.tree target (.target (c.targetGeneration + 1)) =
      (c₁, .ok handle)) :
    Traces sound others slot s held .location rest c
      ⟨c₁.holdTarget target handle, [.target (c.targetGeneration + 1)], none⟩ := by
  have accepted : s.accepts target = true :=
    accepts_of_granted impartial (h.dropTarget law).holding.sound ha
  have ht : s.target? = some target := by
    rw [Scene.target?_of_ok hm, hp, Option.filter_some, if_pos accepted]
  have hc : (c.dropTarget.attach s.tree target (.target (c.targetGeneration + 1))).1 = c₁ :=
    congrArg Prod.fst ha
  have asked : Plays s slot c₁ := hc ▸ plays.dropTarget.attach ..
  refine ⟨held, tended_moved law h ha, asked.holdTarget .., ?_⟩
  rw [outline_holdTarget, ← hc, outline_dropTarget_attach, Option.map_none,
    ← Scene.astray_of_target? ht]
  exact .moved rfl ht

theorem traces_refused (law : Lawful σ sound) (impartial : Impartial sound s)
    (h : Kept sound others rest held c) (plays : Plays s slot c)
    (hm : s.manifest = .ok manifest) (hp : manifest.path? = some target)
    (ha : c.dropTarget.attach s.tree target (.target (c.targetGeneration + 1)) =
      (c₁, .error failure)) :
    Traces sound others slot s held .location rest c ⟨c₁.resetTiers, [], some failure⟩ := by
  obtain ⟨refused, kind⟩ :=
    accepts_of_refused impartial (h.dropTarget law).holding.sound ha
  have ht : s.target? = none := by
    rw [Scene.target?_of_ok hm, hp, Option.filter_some, refused]
    rfl
  have hf : s.astray = some failure.kind := by
    rw [Scene.astray_of_ok hm, hp, Option.all_some, refused, kind]
    rfl
  have hc : (c.dropTarget.attach s.tree target (.target (c.targetGeneration + 1))).1 = c₁ :=
    congrArg Prod.fst ha
  have asked : Plays s slot c₁ := hc ▸ plays.dropTarget.attach ..
  have outlined := outline_dropTarget_attach s.tree target (held.map (·.2)) c
  rw [hc] at outlined
  have tg : c₁.targetGeneration = c.targetGeneration + 1 :=
    congrArg Outline.targetGeneration outlined
  have rg : c₁.reportGeneration = c.reportGeneration := congrArg Outline.reportGeneration outlined
  refine traces_alone (tended_refused law h ha) asked.resetTiers ?_
  rw [List.map_nil, outline_resetTiers (held.map (·.2)), outlined, tg, rg, Option.map_some, ← hf]
  exact .reset rfl (Scene.isOk_iff.2 ⟨_, hm⟩) ht (Nat.lt_succ_of_lt (Nat.lt_succ_self _))
    (Nat.lt_succ_self _)

theorem step_forget (units : List ReportUnit) (rest : List Route)
    (c : Controller σ) :
    Outline.Step s ((outline units c).withQueue (.target c.targetGeneration :: rest)) s.lost
      ((outline s.named c.dropReports.clearIndex).withQueue
        (rest ++ s.named.map (.report (c.reportGeneration + 1)))) := by
  rw [outline_forget s.named units]
  exact .rebuilt rfl

theorem traces_lost (law : Lawful σ sound) (h : Tended sound others rest held c)
    (plays : Plays s slot c) (hm : s.manifest = .error failure) :
    Traces sound others slot s held (.target c.targetGeneration) rest c
      ⟨c.dropReports.clearIndex, [], some failure⟩ := by
  have step := step_forget (s := s) (held.map (·.2)) rest c
  rw [Scene.named_of_error hm, Scene.lost_of_error hm, List.map_nil, List.append_nil] at step
  exact traces_alone (tended_forgotten law h) plays.forget step

theorem traces_unread (law : Lawful σ sound) (h : Tended sound others rest held c)
    (plays : Plays s slot c) (hm : s.manifest = .ok manifest)
    (hu : Snapshot.unitsOf (.still s.tree) c.config manifest = .error failure) :
    Traces sound others slot s held (.target c.targetGeneration) rest c
      ⟨c.dropReports.clearIndex.warn [.manifest failure], [], none⟩ := by
  have unnamed : s.named = [] := by
    rw [Scene.named_of_ok hm, ← plays.config, hu]
    rfl
  have step := step_forget (s := s) (held.map (·.2)) rest c
  rw [unnamed, Scene.lost_of_ok hm, List.map_nil, List.append_nil] at step
  have tended : Tended sound others rest [] (c.dropReports.clearIndex.warn [.manifest failure]) :=
    (tended_forgotten law h).note (quiet_warned _)
  refine traces_alone tended (plays.forget.warn _) ?_
  rw [List.map_nil, outline_warn]
  exact step

theorem traces_followed (law : Lawful σ sound) (impartial : Impartial sound s)
    (h : Tended sound others rest held c) (plays : Plays s slot c) {units : List ReportUnit}
    (hm : s.manifest = .ok manifest)
    (hu : Snapshot.unitsOf (.still s.tree) c.config manifest = .ok units) :
    Traces sound others slot s held (.target c.targetGeneration) rest c
      (c.dropReports.clearIndex.watchReports (.still s.tree) units) := by
  have forgotten := tended_forgotten law h
  have attached : (attachReports (.still s.tree) c.dropReports.clearIndex.reportGeneration
      c.dropReports.clearIndex units).2.map (·.2) = s.named := by
    rw [attachReports_filter law impartial _ units forgotten.holding.sound,
      Scene.named_of_ok hm, ← plays.config, hu]
    rfl
  have queue : (c.dropReports.clearIndex.watchReports (.still s.tree) units).attached =
      s.named.map (.report (c.reportGeneration + 1)) := by
    rw [← attached, List.map_map, watchReports, ← reportGeneration_dropReports]
    rfl
  have step := step_forget (s := s) (held.map (·.2)) rest c
  rw [Scene.lost_of_ok hm] at step
  refine ⟨_, tended_watchReports law forgotten _ units, plays.forget.watchReports .., ?_⟩
  rw [attached, outline_watchReports law forgotten.holding, queue]
  exact step

theorem traces_taken {unit : ReportUnit}
    (h : Tended sound others (.report c.reportGeneration unit :: rest) held c)
    (plays : Plays s slot c) :
    Traces sound others slot s held (.report c.reportGeneration unit) rest c
      ⟨c.processReport (.still s.tree) unit, [], none⟩ := by
  have shown : ∀ path, s.Visible path → _ := fun path => shown_processReport plays unit
  have index : c.index.apply unit.sourceKey (unit.read (.still s.tree) c.config).usages =
      s.takeIn [unit] c.index := by
    rw [plays.config]
    rfl
  have tended := tended_processReport h (.still s.tree)
  obtain ⟨journal, he⟩ := processReport_eq (.still s.tree) unit c
  rw [he, index] at shown tended ⊢
  exact traces_alone tended { plays with } (.taken rfl shown)

/-- Every outcome of a handler has its step. -/
theorem Outcome.traces (law : Lawful σ sound) (impartial : Impartial sound s)
    {handled : Handled σ} (outcome : Outcome (.still s.tree) c route handled)
    (h : Tended sound others (route :: rest) held c) (plays : Plays s slot c) :
    Traces sound others slot s held route rest c handled := by
  have resolved := plays.resolved
  cases outcome with
  | ignored old =>
    exact traces_alone (h.pop old.ne_report) plays
      (.passed rfl old.ne_location old.ne_target old.unitOf)
  | @unresolved failure hr =>
    have hm : s.manifest = .error failure := resolved.symm.trans hr
    refine traces_alone (h.pop (by simp)) plays ?_
    rw [Option.map_some, ← Scene.astray_of_error hm]
    exact .unresolved rfl (Scene.isOk_eq_false_iff.2 ⟨_, hm⟩)
  | missing hr hp =>
    exact traces_missing law (h.pop (by simp)).toKept plays (resolved.symm.trans hr) hp
  | moved hr hp ha =>
    exact traces_moved law impartial (h.pop (by simp)).toKept plays (resolved.symm.trans hr) hp ha
  | refused hr hp ha =>
    exact traces_refused law impartial (h.pop (by simp)).toKept plays (resolved.symm.trans hr) hp ha
  | lost hr => exact traces_lost law (h.pop (by simp)) plays (resolved.symm.trans hr)
  | unread hr hu =>
    exact traces_unread law (h.pop (by simp)) plays (resolved.symm.trans hr) hu
  | followed hr hu =>
    rw [Disk.after_still]
    exact traces_followed law impartial (h.pop (by simp)) plays (resolved.symm.trans hr) hu
  | taken unit => exact traces_taken h plays

end

/-- Serving a route is a step of the outline. -/
theorem serve_step (law : Lawful σ sound) (impartial : Impartial sound s)
    {others : List LiveWatch} {held : List (Handle × ReportUnit)} {route : Route}
    {rest : List Route} (h : Tended sound others c.pending held c) (plays : Plays s slot c)
    (hp : c.pending = route :: rest) {served : Controller σ × Option Failure}
    (hs : c.serve (.still s.tree) route rest = served) :
    ∃ held', Tended sound others served.1.pending held' served.1 ∧ Plays s slot served.1 ∧
      Outline.Step s (outline (held.map (·.2)) c) (served.2.map Failure.kind)
        (outline (held'.map (·.2)) served.1) := by
  have same : (outline (held.map (·.2)) ((c.withPending rest).note [.dispatched route])).withQueue
      (route :: rest) = outline (held.map (·.2)) c := by
    have sent : ((c.withPending rest).note [.dispatched route]).sent = c.sent :=
      (sameDisplay_heard c.service (by simp [Notice.sent?]) (c.withPending rest)).sent
    rw [outline_eq _ sent, ← hp]
    rfl
  obtain ⟨handled, outcome, failure, warnings, he⟩ :=
    serve_outcome (.still s.tree) route rest c
  obtain ⟨held', tended, after, step⟩ :=
    outcome.traces law impartial (h.dispatched hp) { plays with }
  rw [same, ← failure] at step
  subst hs
  rw [he]
  refine ⟨held', (tended.withPending _).note (quiet_warned warnings),
    (after.withPending _).warn warnings, ?_⟩
  rw [outline_warn]
  exact step

end

section

variable {s : Scene} {slot : Slot Handle} {c : Controller σ}

/-! ### A whole pass -/

/-- The pass came to what the outline foretells. -/
structure Fulfils (sound : σ → Prop) (others : List LiveWatch) (slot : Slot Handle) (s : Scene)
    (o : Outline) (held : List (Handle × ReportUnit)) (result : Controller σ × Option Failure) :
    Prop extends Tended sound others [] held result.1, Plays s slot result.1 where
  index : result.1.index = (o.ending s).index
  target : result.1.target = (o.ending s).target
  units : held.map (·.2) = (o.ending s).units
  failure : result.2.map Failure.kind = o.failing s
  shown : ∀ path, s.Visible path → result.1.shown path = o.display s path

/-- The queue is empty: what is foretold is what is there, once what was put off is rendered. -/
theorem fulfils_flush {others : List LiveWatch} {held : List (Handle × ReportUnit)} {o : Outline}
    {first : Option Failure} (h : Tended sound others c.pending held c) (plays : Plays s slot c)
    (leads : Outline.Leads s o (first.map Failure.kind) (outline (held.map (·.2)) c))
    (hp : c.pending = []) :
    Fulfils sound others slot s o held (c.flush (.still s.tree), first) := by
  have ending := leads.ending
  have failing := leads.failing
  rw [Outline.ending_of_empty hp] at ending
  rw [Outline.failing_of_empty hp, Option.or_none] at failing
  rw [hp] at h
  have tended := (tended_flush h (.still s.tree)).1
  have shown : ∀ path, s.Visible path →
      (c.flush (.still s.tree)).shown path = o.display s path := by
    intro path visible
    rw [← leads.display path visible, Outline.display_of_empty hp, flush]
    split
    · next hr =>
      have plays' : Plays s slot { c with renderAll := false } := { plays with }
      exact (shown_publish_of_includes plays' visible rfl).trans (if_pos hr).symm
    · next hr => exact (if_neg hr).symm
  have same : Plays s slot (c.flush (.still s.tree)) ∧
      (c.flush (.still s.tree)).index = c.index ∧ (c.flush (.still s.tree)).target = c.target := by
    unfold flush
    split
    · exact ⟨{ plays with }, rfl, rfl⟩
    · exact ⟨plays, rfl, rfl⟩
  exact ⟨tended, same.1, same.2.1.trans (congrArg Ending.index ending),
    same.2.2.trans (congrArg Ending.target ending), congrArg Ending.units ending, failing, shown⟩

theorem drain_fulfils (law : Lawful σ sound) (impartial : Impartial sound s)
    {others : List LiveWatch} {held : List (Handle × ReportUnit)}
    (h : Tended sound others c.pending held c) (plays : Plays s slot c)
    (fit : (outline (held.map (·.2)) c).Fit s) (n : Nat) :
    ∃ held', Fulfils sound others slot s (outline (held.map (·.2)) c) held'
      (c.drain (.still s.tree) n none) := by
  let o := outline (held.map (·.2)) c
  obtain ⟨m, c', hp, ⟨held', h', plays', leads⟩, he⟩ :=
    drain_rule (w := .still s.tree)
      (P := fun _ first c' => ∃ held', Tended sound others c'.pending held' c' ∧ Plays s slot c' ∧
        Outline.Leads s o (first.map Failure.kind) (outline (held'.map (·.2)) c'))
      (fun {n first c route rest} hp ⟨held', h', plays', leads⟩ => by
        obtain ⟨held'', h'', plays'', step⟩ := serve_step law impartial h' plays' hp rfl
        refine ⟨held'', h'', plays'', ?_⟩
        rw [Option.map_or]
        exact leads.step step)
      n none ⟨held, h, plays, .refl fit⟩
  refine ⟨held', ?_⟩
  have result : c.drain (.still s.tree) n none =
      (c'.flush (.still s.tree), (c.drain (.still s.tree) n none).2) := Prod.ext he rfl
  rw [result]
  exact fulfils_flush h' plays' leads hp

end

end StackUsage.Controller

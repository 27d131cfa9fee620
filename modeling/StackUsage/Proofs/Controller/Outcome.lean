import StackUsage.Proofs.Controller.Run
import StackUsage.Proofs.Controller.Still

/-! Everything that handling one route can come to, whatever the tree and the refusals. What a pass
keeps is proved from this list, with one case for each way a handler can end. -/

namespace StackUsage.Controller

variable {σ : Type} [WatchService σ]

/-! ### Current routes -/

/-- Of the current generation of its tier. -/
def Current (c : Controller σ) : Route → Prop
  | .location => True
  | .target generation => generation = c.targetGeneration
  | .report generation _ => generation = c.reportGeneration

/-- What the handler of a route does, whatever generation the route is of. -/
def perform (d : Disk) (route : Route) (c : Controller σ) : Handled σ :=
  match route with
  | .location => c.updateTarget d
  | .target _ => c.rebuildReports d
  | .report _ unit => ⟨c.processReport d unit, [], none⟩

theorem dispatch_current {route : Route} {c : Controller σ} (h : Current c route) (d : Disk) :
    c.dispatch d route = (c.note [.dispatched route]).perform d route := by
  cases route with
  | location => rfl
  | target generation => exact if_pos h
  | report generation unit => exact if_pos h

/-! ### All outcomes -/

/-- What a route comes to for a controller that has written it down. -/
inductive Outcome (d : Disk) (c : Controller σ) : Route → Handled σ → Prop
  | ignored {route : Route} : Ignored c route → Outcome d c route ⟨c, [], none⟩
  | unresolved {failure : Failure} :
    Resolution.resolve (d 0) c.location = .error failure →
      Outcome d c .location ⟨c, [], some failure⟩
  | missing {manifest : Resolution} :
    Resolution.resolve (d 0) c.location = .ok manifest → manifest.path? = none →
      Outcome d c .location ⟨c.resetTiers, [], none⟩
  | moved {manifest : Resolution} {target : Path} {handle : Handle} {c₁ : Controller σ} :
    Resolution.resolve (d 0) c.location = .ok manifest → manifest.path? = some target →
    c.dropTarget.attach (d 1) target (.target (c.targetGeneration + 1)) = (c₁, .ok handle) →
      Outcome d c .location
        ⟨c₁.holdTarget target handle, [.target (c.targetGeneration + 1)], none⟩
  | refused {manifest : Resolution} {target : Path} {failure : Failure} {c₁ : Controller σ} :
    Resolution.resolve (d 0) c.location = .ok manifest → manifest.path? = some target →
    c.dropTarget.attach (d 1) target (.target (c.targetGeneration + 1)) = (c₁, .error failure) →
      Outcome d c .location ⟨c₁.resetTiers, [], some failure⟩
  | lost {failure : Failure} :
    Resolution.resolve (d 0) c.location = .error failure →
      Outcome d c (.target c.targetGeneration) ⟨c.dropReports.clearIndex, [], some failure⟩
  | unread {manifest : Resolution} {failure : Failure} :
    Resolution.resolve (d 0) c.location = .ok manifest →
    Snapshot.unitsOf d c.config manifest = .error failure →
      Outcome d c (.target c.targetGeneration)
        ⟨c.dropReports.clearIndex.warn [.manifest failure], [], none⟩
  | followed {manifest : Resolution} {units : List ReportUnit} :
    Resolution.resolve (d 0) c.location = .ok manifest →
    Snapshot.unitsOf d c.config manifest = .ok units →
      Outcome d c (.target c.targetGeneration)
        (c.dropReports.clearIndex.watchReports (d.after 3) units)
  | taken (unit : ReportUnit) :
    Outcome d c (.report c.reportGeneration unit) ⟨c.processReport d unit, [], none⟩

theorem outcome_location (d : Disk) (c : Controller σ) :
    Outcome d c .location (c.updateTarget d) := by
  unfold updateTarget
  split
  · next hr => exact .unresolved hr
  · next hr =>
    split
    · next hm => exact .missing hr hm
    · next hm =>
      unfold watchTarget
      split
      · next ha => exact .moved hr hm ha
      · next ha => exact .refused hr hm ha

theorem outcome_target (d : Disk) (c : Controller σ) :
    Outcome d c (.target c.targetGeneration) (c.rebuildReports d) := by
  -- Dropping the reports and clearing the index leave the workspace as it is.
  have same : c.dropReports.clearIndex.location = c.location ∧
      c.dropReports.clearIndex.config = c.config := by
    rw [dropReports_eq]
    exact ⟨rfl, rfl⟩
  unfold rebuildReports followManifest
  rw [same.1, same.2]
  split
  · next hr => exact .lost hr
  · next hr =>
    split
    · next hu => exact .unread hr hu
    · next hu => exact .followed hr hu

theorem dispatch_outcome (d : Disk) (route : Route) (c : Controller σ) :
    Outcome d (c.note [.dispatched route]) route (c.dispatch d route) := by
  cases route with
  | location => exact outcome_location d _
  | target generation =>
    simp only [dispatch]
    split
    · next hg =>
      subst hg
      exact outcome_target d (c.note [.dispatched (.target c.targetGeneration)])
    · next hg => exact .ignored hg
  | report generation unit =>
    simp only [dispatch]
    split
    · next hg =>
      subst hg
      exact .taken unit
    · next hg => exact .ignored hg

/-- Serving a route: it is written down, its handler comes to one of the outcomes, and what that
attached goes to the end of the queue. A failure is warned about and given back. -/
theorem serve_outcome (d : Disk) (route : Route) (rest : List Route) (c : Controller σ) :
    ∃ handled, Outcome d ((c.withPending rest).note [.dispatched route]) route handled ∧
      (c.serve d route rest).2 = handled.failure ∧
      ∃ warnings, (c.serve d route rest).1 =
        (handled.controller.withPending (rest ++ handled.attached)).warn warnings := by
  refine ⟨_, dispatch_outcome d route (c.withPending rest), ?_⟩
  rw [serve]
  generalize (c.withPending rest).dispatch d route = handled
  cases hf : handled.failure with
  | none => exact ⟨rfl, [], by simp [warn, note, withPending]⟩
  | some failure => exact ⟨rfl, [.handlerFailed c.root failure], rfl⟩

/-! ### What a report adds -/

/-- What the journal shows of an announcement: what the documents are sent, and the update. -/
def announcement (sent : List (Path × List Decoration)) (paths : Option (List String))
    (index : Index) : List Notice :=
  sent.map (fun (path, decorations) => .decorated path decorations) ++
    [.published ⟨paths, sent.length, index.size, index.sourceCount⟩]

omit [WatchService σ] in
theorem journal_publish (d : Disk) (affected : Affected) (c : Controller σ) :
    (c.publish d affected).journal =
      c.journal ++ announcement (c.rendered d affected c.documents) affected.names? c.index := rfl

omit [WatchService σ] in
theorem journal_applyReport (unit : ReportUnit) (report : Report) (c : Controller σ) :
    (c.applyReport unit report).journal =
      c.journal ++ (report.warnings.map .warned ++ [.indexed unit.sourceKey]) := by
  simp [applyReport, warn, note]

omit [WatchService σ] in
/-- A report warns, joins the index and is announced on the spot, unless the rendering is put off.
-/
theorem journal_processReport (d : Disk) (unit : ReportUnit) (c : Controller σ) :
    ∃ (sent : List (Path × List Decoration)) (paths : List String),
      (c.processReport d unit).journal =
        c.journal ++ ((unit.read d c.config).warnings.map .warned ++ [.indexed unit.sourceKey]) ++
          if c.renderAll then []
          else announcement sent (some paths) (c.processReport d unit).index := by
  unfold processReport
  dsimp only
  split
  · exact ⟨[], [], by rw [journal_applyReport, List.append_nil]⟩
  · generalize unit.read d c.config = report
    let affected := c.index.affected unit.sourceKey report.usages
    refine ⟨(c.applyReport unit report).rendered (d.after (2 + report.usages.length))
      (.paths affected) c.documents, affected, ?_⟩
    rw [journal_publish, journal_applyReport]
    rfl

end StackUsage.Controller

import StackUsage.Proofs.Controller.Announcements
import StackUsage.Proofs.Controller.Generations
import StackUsage.Proofs.Resolution

/-! What becomes of a failure. A location that cannot be looked up changes nothing but the log, and
a real manifest whose watch is refused leaves as little as a missing one. Whatever fails in a call,
the rest of its queue is worked through as it stands, with every watch that is granted on the way,
and the first failure is the answer. -/

namespace StackUsage

namespace Notice

/-- The route that is about to be handled. -/
def handled? : Notice → Option Route
  | .dispatched route => some route
  | _ => none

/-- The route of a watch that is granted. -/
def granted? : Notice → Option Route
  | .attached _ _ route => some route
  | _ => none

/-- Whether the notice tells of a route that joins the queue or leaves it. -/
def isOfQueue : Notice → Bool
  | .dispatched _ => true
  | .attached _ _ _ => true
  | _ => false

theorem filterMap_eq_nil_of_isOfQueue {notices : List Notice}
    (h : ∀ n ∈ notices, n.isOfQueue = false) :
    notices.filterMap granted? = [] ∧ notices.filterMap handled? = [] := by
  constructor
  all_goals
    refine List.filterMap_eq_nil_iff.2 fun n hn => ?_
    have := h n hn
    cases n <;> first | rfl | cases this

theorem filterMap_warned (warnings : List Warning) :
    (warnings.map warned).filterMap granted? = [] ∧ (warnings.map warned).filterMap handled? = [] :=
  filterMap_eq_nil_of_isOfQueue (by simp [isOfQueue])

end Notice

namespace Controller

open WatchService (Lawful)

variable {σ : Type}

/-! ### What a handler adds to the queue -/

/-- Watches were granted for these routes, in this order, and no route was handled. -/
def Grants (routes : List Route) (c c' : Controller σ) : Prop :=
  ∃ notices, c'.journal = c.journal ++ notices ∧
    notices.filterMap Notice.granted? = routes ∧ notices.filterMap Notice.handled? = []

theorem Grants.refl (c : Controller σ) : Grants [] c c :=
  ⟨[], (List.append_nil _).symm, rfl, rfl⟩

theorem Grants.trans {routes routes' : List Route} {c c₁ c₂ : Controller σ}
    (h : Grants routes c c₁) (h' : Grants routes' c₁ c₂) : Grants (routes ++ routes') c c₂ := by
  obtain ⟨n₁, hj₁, hg₁, hd₁⟩ := h
  obtain ⟨n₂, hj₂, hg₂, hd₂⟩ := h'
  exact ⟨n₁ ++ n₂, by rw [hj₂, hj₁, List.append_assoc], by rw [List.filterMap_append, hg₁, hg₂],
    by rw [List.filterMap_append, hd₁, hd₂, List.append_nil]⟩

/-- Steps that grant nothing may stand before and behind. -/
theorem Grants.within {routes : List Route} {c c₁ c₂ c' : Controller σ} (before : Grants [] c c₁)
    (h : Grants routes c₁ c₂) (after : Grants [] c₂ c') : Grants routes c c' := by
  simpa using (before.trans h).trans after

theorem grants_of_journal {c c' : Controller σ} {notices : List Notice}
    (hj : c'.journal = c.journal ++ notices) (hn : ∀ n ∈ notices, n.isOfQueue = false) :
    Grants [] c c' := ⟨notices, hj, Notice.filterMap_eq_nil_of_isOfQueue hn⟩

theorem grants_heard_warned (s : σ) (warnings : List Warning) (c : Controller σ) :
    Grants [] c (c.heard s (warnings.map .warned)) :=
  grants_of_journal rfl (by simp [Notice.isOfQueue])

theorem grants_warn (warnings : List Warning) (c : Controller σ) : Grants [] c (c.warn warnings) :=
  grants_heard_warned c.service warnings c

theorem isOfQueue_announcement (sent : List (Path × List Decoration))
    (paths : Option (List String)) (index : Index) :
    ∀ n ∈ announcement sent paths index, n.isOfQueue = false := by
  intro n hn
  rcases List.mem_append.1 hn with hn | hn
  · obtain ⟨x, -, rfl⟩ := List.mem_map.1 hn
    rfl
  · cases List.mem_singleton.1 hn
    rfl

theorem grants_publish (d : Disk) (affected : Affected) (c : Controller σ) :
    Grants [] c (c.publish d affected) :=
  grants_of_journal (journal_publish d affected c) (isOfQueue_announcement _ _ _)

theorem grants_flush (d : Disk) (c : Controller σ) : Grants [] c (c.flush d) := by
  unfold flush
  split
  · exact grants_publish d .all { c with renderAll := false }
  · exact .refl c

theorem grants_processReport (d : Disk) (unit : ReportUnit) (c : Controller σ) :
    Grants [] c (c.processReport d unit) := by
  have applied : Grants [] c (c.applyReport unit (unit.read d c.config)) := by
    refine grants_of_journal (journal_applyReport unit _ c) fun n hn => ?_
    rcases List.mem_append.1 hn with hn | hn
    · obtain ⟨warning, -, rfl⟩ := List.mem_map.1 hn
      rfl
    · cases List.mem_singleton.1 hn
      rfl
  unfold processReport
  dsimp only
  split
  · exact applied
  · exact applied.trans (grants_publish _ _ _)

variable [WatchService σ]

theorem grants_disposeAll (handles : List Handle) (c : Controller σ) :
    Grants [] c (c.disposeAll handles) := by
  rw [disposeAll_eq]
  exact grants_of_journal rfl (by simp [Notice.isOfQueue])

theorem grants_dropTarget (c : Controller σ) : Grants [] c c.dropTarget :=
  grants_disposeAll _ c

theorem grants_forget (c : Controller σ) : Grants [] c c.dropReports.clearIndex := by
  have dropped : Grants [] c c.dropReports := grants_disposeAll _ c
  have cleared : Grants [] c.dropReports c.dropReports.clearIndex :=
    grants_of_journal rfl (by simp [Notice.isOfQueue])
  exact dropped.trans cleared

theorem grants_resetTiers (c : Controller σ) : Grants [] c c.resetTiers :=
  (grants_dropTarget c).trans (grants_forget c.dropTarget)

/-- Asking for a watch grants its route or nothing. -/
theorem grants_attach {t : Tree} {path : Path} {route : Route} {c c₁ : Controller σ}
    {answer : Except Failure Handle} (h : c.attach t path route = (c₁, answer)) :
    Grants (if answer.isOk then [route] else []) c c₁ := by
  obtain ⟨id, -, he⟩ | ⟨refusal, -, he⟩ := attach_cases t path route c
  · cases he.symm.trans h
    have warned := Notice.filterMap_warned (WatchService.watch t path route c.service).warnings
    exact ⟨_, rfl, by rw [List.filterMap_append, warned.1]; rfl,
      by rw [List.filterMap_append, warned.2]; rfl⟩
  · cases he.symm.trans h
    exact grants_heard_warned _ _ c

theorem grants_attachReports (units : List ReportUnit) (d : Disk) (generation : Nat)
    (c : Controller σ) :
    Grants ((attachReports d generation c units).2.map fun held => .report generation held.2) c
      (attachReports d generation c units).1 := by
  induction units generalizing d c with
  | nil => exact .refl c
  | cons unit rest ih =>
    rw [attachReports]
    split
    · next ha => exact (grants_attach ha).trans (ih _ _)
    · next failure ha =>
      exact ((grants_attach ha).trans (grants_warn [.unwatched unit.reportPath failure] _)).trans
        (ih _ _)

/-- The routes that a handler attaches are those whose watches were granted while it ran. -/
theorem Outcome.grants {d : Disk} {route : Route} {c : Controller σ} {handled : Handled σ}
    (outcome : Outcome d c route handled) : Grants handled.attached c handled.controller := by
  cases outcome with
  | ignored _ => exact .refl c
  | unresolved _ => exact .refl c
  | missing _ _ => exact grants_resetTiers c
  | moved _ _ ha => exact (grants_dropTarget c).within (grants_attach ha) (grants_disposeAll _ _)
  | refused _ _ ha => exact (grants_dropTarget c).within (grants_attach ha) (grants_resetTiers _)
  | lost _ => exact grants_forget c
  | unread _ _ => exact (grants_forget c).trans (grants_warn _ _)
  | followed _ _ =>
    exact (grants_forget c).within (grants_attachReports _ _ _ _) (grants_disposeAll _ _)
  | taken unit => exact grants_processReport d unit c

/-! ### Working through a queue -/

/-- Serving the queue, with what became of each route: which one was handled, and its failure. -/
inductive Works (w : World) (n : Nat) (c : Controller σ) :
    List (Route × Option Failure) → Nat → Controller σ → Prop
  | nil : Works w n c [] n c
  | serve {served : List (Route × Option Failure)} {m : Nat} {c' : Controller σ} {route : Route}
    {rest : List Route} : Works w n c served m c' → c'.pending = route :: rest →
      Works w n c (served ++ [(route, ((c'.withPending rest).dispatch (w m) route).failure)])
        (m + 1) (c'.serve (w m) route rest).1

/-- A served route is written down, and what is granted on the way goes to the end of the queue. -/
theorem serve_grants (d : Disk) (route : Route) (rest : List Route) (c : Controller σ) :
    ∃ notices, (c.serve d route rest).1.journal = c.journal ++ notices ∧
      notices.filterMap Notice.handled? = [route] ∧
      (c.serve d route rest).1.pending = rest ++ notices.filterMap Notice.granted? := by
  obtain ⟨handled, outcome, -, warnings, he⟩ := serve_outcome d route rest c
  obtain ⟨notices, hj, hg, hd⟩ := outcome.grants
  have warned := Notice.filterMap_warned warnings
  refine ⟨[.dispatched route] ++ (notices ++ warnings.map .warned), ?_, ?_, ?_⟩
  · rw [he]
    change handled.controller.journal ++ _ = _
    rw [hj]
    simp only [note, withPending, List.append_assoc]
  · rw [List.filterMap_append, List.filterMap_append, hd, warned.2]
    rfl
  · rw [he, List.filterMap_append, List.filterMap_append, hg, warned.1, List.append_nil]
    rfl

theorem serve_failure (d : Disk) (route : Route) (rest : List Route) (c : Controller σ) :
    (c.serve d route rest).2 = ((c.withPending rest).dispatch d route).failure := by
  rw [serve]
  cases ((c.withPending rest).dispatch d route).failure <;> rfl

/-- The state of a pass: what has been served, in front of what waits, is what was queued first
and then, in order, what has been granted since; the answer so far is the first failure. -/
structure Passing (w : World) (n : Nat) (c : Controller σ) (m : Nat) (first : Option Failure)
    (c' : Controller σ) (served : List (Route × Option Failure)) (log : List Notice) : Prop where
  works : Works w n c served m c'
  journal : c'.journal = c.journal ++ log
  handled : log.filterMap Notice.handled? = served.map (·.1)
  order : served.map (·.1) ++ c'.pending = c.pending ++ log.filterMap Notice.granted?
  answer : first = (served.filterMap (·.2)).head?

theorem Passing.serve {w : World} {n m : Nat} {c c' : Controller σ} {first : Option Failure}
    {served : List (Route × Option Failure)} {log : List Notice}
    (h : Passing w n c m first c' served log) {route : Route} {rest : List Route}
    (hp : c'.pending = route :: rest) :
    ∃ served' log', Passing w n c (m + 1) (first.or (c'.serve (w m) route rest).2)
      (c'.serve (w m) route rest).1 served' log' := by
  obtain ⟨notices, hj, hd, hq⟩ := serve_grants (w m) route rest c'
  refine ⟨_, log ++ notices, h.works.serve hp, ?_, ?_, ?_, ?_⟩
  · rw [hj, h.journal, List.append_assoc]
  · rw [List.filterMap_append, h.handled, hd, List.map_append]
    rfl
  · have order := h.order
    rw [hp] at order
    rw [hq, List.filterMap_append, ← List.append_assoc, ← List.append_assoc, ← order]
    simp
  · rw [List.filterMap_append, List.head?_append, ← h.answer, serve_failure]
    cases ((c'.withPending rest).dispatch (w m) route).failure <;> rfl

/-- Working through a queue serves what it held at first and then, in order, what is granted on the
way, whatever fails; the answer is the first failure. -/
theorem drain_works (w : World) (n : Nat) (c : Controller σ) :
    ∃ served log m c', Works w n c served m c' ∧ c'.pending = [] ∧
      (c.drain w n none).1 = c'.flush (w m) ∧
      (c.drain w n none).1.journal = c.journal ++ log ∧
      log.filterMap Notice.handled? = served.map (·.1) ∧
      served.map (·.1) = c.pending ++ log.filterMap Notice.granted? ∧
      (c.drain w n none).2 = (served.filterMap (·.2)).head? := by
  obtain ⟨m, c', hp, ⟨served, log, h⟩, he⟩ := drain_rule (w := w)
    (P := fun m first c' => ∃ served log, Passing w n c m first c' served log)
    (fun hp ⟨_, _, h⟩ => h.serve hp) n none
    ⟨[], [], .nil, (List.append_nil _).symm, rfl, by simp, rfl⟩
  have order := h.order
  rw [hp, List.append_nil] at order
  obtain ⟨ending, hj, hg, hd⟩ := grants_flush (w m) c'
  refine ⟨served, log ++ ending, m, c', h.works, hp, he, ?_, ?_, ?_, h.answer⟩
  · rw [he, hj, h.journal, List.append_assoc]
  · rw [List.filterMap_append, h.handled, hd, List.append_nil]
  · rw [List.filterMap_append, order, hg, List.append_nil]

/-! ### Failures of the location -/

/-- Between calls a location that cannot be looked up is written down and warned about, and that is
all. -/
theorem handle_unresolved {c : Controller σ} (idle : Idle c) {w : World} {failure : Failure}
    (h : Resolution.resolve (w 1 0) c.location = .error failure) :
    c.handle w .location =
      (c.note [.dispatched .location, .warned (.handlerFailed c.root failure)], some failure) := by
  have hp : (c.enqueue [.location]).pending = [.location] := by simp [enqueue, idle.pending]
  have hd : (c.enqueue [.location]).serve (w 1) .location [] =
      (c.note [.dispatched .location, .warned (.handlerFailed c.root failure)], some failure) := by
    have same : ((c.enqueue [.location]).withPending []).dispatch (w 1) .location =
        ⟨c.note [.dispatched .location], [], some failure⟩ := by
      have lost : Resolution.resolve (w 1 0)
          (((c.enqueue [.location]).withPending []).note [.dispatched .location]).location =
            .error failure := h
      rw [dispatch]
      unfold updateTarget
      rw [lost]
      simp [note, withPending, enqueue, idle.pending]
    rw [serve, same]
    simp [note, warn, withPending, enqueue, idle.pending]
  have nothing : (c.note [.dispatched .location,
      .warned (.handlerFailed c.root failure)]).renderAll = false := idle.renderAll
  rw [handle, drain_cons hp, hd, drain_nil (c := c.note _) idle.pending, flush, nothing]
  rfl

/-- Where the watch on the real manifest is refused, both lower tiers are given up. -/
theorem refused_eq {t : Tree} {target : Path} {failure : Failure} {c c₁ : Controller σ}
    (ha : c.dropTarget.attach t target (.target (c.targetGeneration + 1)) = (c₁, .error failure)) :
    ∃ s notices, c₁.resetTiers =
      { c.heard s notices with
        index := .empty
        targetWatch := .empty
        reportWatches := .empty
        target := none
        targetGeneration := c.targetGeneration + 2
        reportGeneration := c.reportGeneration + 1
        renderAll := true } ∧ ∀ n ∈ notices, n.isUnseen = true := by
  obtain ⟨id, -, he⟩ | ⟨refusal, -, he⟩ := attach_cases t target
    (.target (c.targetGeneration + 1)) c.dropTarget
  · cases ha.symm.trans he
  · cases ha.symm.trans he
    let attempt :=
      WatchService.watch t target (.target (c.targetGeneration + 1)) c.dropTarget.service
    refine ⟨releaseAll (released c.reportWatches.items) attempt.service,
      (released c.targetWatch.current.toList).map .released ++ (attempt.warnings.map .warned ++
        ((released c.reportWatches.items).map .released ++ [.cleared])), ?_, ?_⟩
    · simp only [attempt, resetTiers_heard, dropTarget_eq, heard, Slot.empty, Option.toList_none,
        released, List.flatMap_nil, releaseAll, List.foldl_nil, List.map_nil, List.nil_append,
        List.append_assoc]
    · simp [Notice.isUnseen, or_imp, forall_and]

theorem service_dropTarget {c c' : Controller σ} (hs : c'.service = c.service)
    (hw : c'.targetWatch = c.targetWatch) : c'.dropTarget.service = c.dropTarget.service := by
  rw [dropTarget_eq, dropTarget_eq, ← hs, ← hw]
  rfl

/-- Serving the location where the watch on the real manifest is refused. -/
theorem serve_refused {d : Disk} {c : Controller σ} (rest : List Route) {manifest : Resolution}
    {target : Path} {refusal : WatchRefusal}
    (hr : Resolution.resolve (d 0) c.location = .ok manifest) (hm : manifest.path? = some target)
    (ho : (WatchService.watch (d 1) target (.target (c.targetGeneration + 1))
      c.dropTarget.service).outcome = .error refusal) :
    ∃ s log, c.serve d .location rest =
      ({ c.heard s log with
          index := .empty
          targetWatch := .empty
          reportWatches := .empty
          target := none
          targetGeneration := c.targetGeneration + 2
          reportGeneration := c.reportGeneration + 1
          pending := rest
          renderAll := true }, some (.watch refusal)) ∧ ∀ n ∈ log, n.isUnseen = true := by
  let c₀ := (c.withPending rest).note [.dispatched .location]
  have hs : c₀.dropTarget.service = c.dropTarget.service := service_dropTarget rfl rfl
  obtain ⟨c₁, ha⟩ : ∃ c₁, c₀.dropTarget.attach (d 1) target (.target (c₀.targetGeneration + 1)) =
      (c₁, .error (.watch refusal)) := by
    obtain ⟨id, hg, -⟩ | ⟨refusal', hg, he⟩ := attach_cases (d 1) target
      (.target (c₀.targetGeneration + 1)) c₀.dropTarget
    all_goals
      rw [hs] at hg
      cases hg.symm.trans ho
    exact ⟨_, he⟩
  obtain ⟨s, notices, he, unseen⟩ := refused_eq ha
  have dispatched : (c.withPending rest).dispatch d .location =
      ⟨c₁.resetTiers, [], some (.watch refusal)⟩ := by
    have found : Resolution.resolve (d 0) c₀.location = .ok manifest := hr
    have watched : c₀.dropTarget.watchTarget (d 1) target =
        ⟨c₁.resetTiers, [], some (.watch refusal)⟩ := by
      have generation : c₀.dropTarget.targetGeneration = c₀.targetGeneration + 1 := rfl
      rw [watchTarget, generation, ha]
    change c₀.updateTarget d = _
    unfold updateTarget
    simp only [found, hm, watched]
  refine ⟨s, [.dispatched .location] ++ (notices ++
    [.warned (.handlerFailed c.root (.watch refusal))]), ?_, ?_⟩
  · rw [serve, dispatched, he]
    simp [c₀, note, warn, heard, withPending]
  · simp only [List.mem_append, List.mem_singleton]
    rintro n (rfl | hn | rfl)
    · rfl
    · exact unseen n hn
    · rfl

omit [WatchService σ] in
/-- With an empty index the rendering that was put off sends every visible source an empty list. -/
theorem flush_empty {d : Disk} {c : Controller σ} (hr : c.renderAll = true)
    (hi : c.index = .empty) :
    c.flush d = { c.note (announcement ((c.documents.filter fun doc =>
        c.config.isSource doc.path).map fun doc => (doc.path, [])) none .empty) with
      renderAll := false } := by
  have sent : { c with renderAll := false }.rendered d .all c.documents =
      (c.documents.filter fun doc => c.config.isSource doc.path).map fun doc => (doc.path, []) := by
    rw [rendered, hi, publish_empty]
  rw [flush, if_pos hr, publish, sent, ← hi]
  rfl

/-- Between calls a real manifest whose watch is refused leaves nothing below the location, and the
host is told so once. -/
theorem handle_refused {c : Controller σ} (idle : Idle c) {w : World} {manifest : Resolution}
    {target : Path} {refusal : WatchRefusal}
    (hr : Resolution.resolve (w 1 0) c.location = .ok manifest) (hm : manifest.path? = some target)
    (ho : (WatchService.watch (w 1 1) target (.target (c.targetGeneration + 1))
      c.dropTarget.service).outcome = .error refusal) :
    ∃ s log, c.handle w .location =
      ({ c.heard s (log ++ announcement ((c.documents.filter fun doc =>
            c.config.isSource doc.path).map fun doc => (doc.path, [])) none .empty) with
          index := .empty
          targetWatch := .empty
          reportWatches := .empty
          target := none
          targetGeneration := c.targetGeneration + 2
          reportGeneration := c.reportGeneration + 1 }, some (.watch refusal)) ∧
      ∀ n ∈ log, n.isUnseen = true := by
  have hp : (c.enqueue [.location]).pending = [.location] := by simp [enqueue, idle.pending]
  have hs : (c.enqueue [.location]).dropTarget.service = c.dropTarget.service :=
    service_dropTarget rfl rfl
  obtain ⟨s, log, served, unseen⟩ := serve_refused (c := c.enqueue [.location]) [] hr hm
    (hs ▸ ho)
  refine ⟨s, log, ?_, unseen⟩
  rw [handle, drain_cons hp, served, drain_nil rfl, flush_empty rfl rfl]
  simp only [note, heard, enqueue, idle.pending, idle.renderAll, List.append_assoc, Option.none_or]

/-- Failures of the location are all or nothing, and stop no other route. After any run of honest
turns: if the location cannot be looked up, handling its route returns that failure, and all that
changes is that the log has the route and a warning. If the real manifest is found but its watch is
refused, the refusal is returned, nothing is left of the two lower tiers and of the index, the watch
on the location stays, and the host is told once, with an empty list for every visible source. A
call that works through a queue serves what the queue held and then, in the order of the grants, the
route of each watch that was granted on the way, and returns the first failure among theirs. -/
theorem location_fails_whole (law : Lawful σ sound) {service : σ} (hs : sound service) {root : Path}
    {config : Config} {documents : List Document} {c : Controller σ}
    (run : Reached (Honest sound (WatchService.live service))
      (new root config service documents) c) :
    (∀ (w : World) (fault : Tree.Fault), (w 1 0).readLink c.location = .error fault →
      fault ≠ .notFound → fault ≠ .notLink → fault ≠ .nulInName →
        c.handle w .location = (c.note [.dispatched .location,
          .warned (.handlerFailed c.root (.access fault))], some (.access fault))) ∧
    (∀ (w : World) (manifest : Resolution) (target : Path) (refusal : WatchRefusal),
      Resolution.resolve (w 1 0) c.location = .ok manifest → manifest.path? = some target →
      (WatchService.watch (w 1 1) target (.target (c.targetGeneration + 1))
        c.dropTarget.service).outcome = .error refusal →
        ∃ c', c.handle w .location = (c', some (.watch refusal)) ∧
          c'.targetWatch = .empty ∧ c'.reportWatches = .empty ∧ c'.target = none ∧
          c'.index = .empty ∧ c'.locationWatch = c.locationWatch ∧
          (WatchService.live c'.service).Perm (WatchService.live service ++ c.locationPart) ∧
          ∃ log, c'.journal = c.journal ++ (log ++ announcement ((c.documents.filter fun doc =>
              c.config.isSource doc.path).map fun doc => (doc.path, [])) none .empty) ∧
            ∀ n ∈ log, n.isUnseen = true) ∧
    ∀ (w : World) (call : Call) (c₁ : Controller σ), c.opening w call = some c₁ →
      ∃ served log m c₂, Works w 1 c₁ served m c₂ ∧ c₂.pending = [] ∧
        (c.call w call).1 = c₂.flush (w m) ∧
        (c.call w call).1.journal = c₁.journal ++ log ∧
        log.filterMap Notice.handled? = served.map (·.1) ∧
        served.map (·.1) = c₁.pending ++ log.filterMap Notice.granted? ∧
        (c.call w call).2 = (served.filterMap (·.2)).head? := by
  have idle : Idle c := run.idle
  refine ⟨fun w fault hf found link nul => ?_, fun w manifest target refusal hr hm ho => ?_,
    fun w call c₁ ho => ?_⟩
  · exact handle_unresolved idle (Resolution.resolve_of_fault hf found link nul)
  · obtain ⟨s, log, he, unseen⟩ := handle_refused idle hr hm ho
    refine ⟨_, he, rfl, rfl, rfl, rfl, rfl, ?_, log, rfl, unseen⟩
    obtain ⟨held, tended⟩ := (orderly_reached law hs run).tended
    have queued : Tended sound (WatchService.live service) (c.enqueue [.location]).pending held
        (c.enqueue [.location]) := tended.enqueue (by simp [Accounted])
    obtain ⟨held', tended', -⟩ := tended_drain law queued w 1 none
    rw [show drain w 1 none (c.enqueue [.location]) = _ from he] at tended'
    -- No report is held, so the location's watch is the only one of the controller's.
    have none : held' = [] := List.map_eq_nil_iff.1 tended'.reports.symm
    have live := tended'.holding.live
    rw [none] at live
    simpa [own, targetPart, reportPart, locationPart, location, Slot.empty, heard] using live
  · rw [call_eq_drain ho]
    exact drain_works w 1 c₁

/-- A roster that refuses its fifth request. -/
def wary : Roster := { Roster.empty with refuses := fun n _ => n = 4 }

/-- A controller of `pair` that will be refused its next watch. -/
def waryStarted : Controller Roster :=
  (new ⟨"/w"⟩ pairConfig wary [pairDocument]).turn (.call (.still pair) .start)

/-- The root of `pair` has become a file. -/
def flattened : Tree := ⟨[['w']], [([['w']], .file (some ""))]⟩

/-- What both watches on the manifest of `pair` hear of. -/
def manifestChange : Call := .handleEvent (.ok ⟨.modifyData, [⟨"/w/m"⟩]⟩)

theorem waryStarted_refused :
    flattened.readLink waryStarted.location = .error .notDirectory ∧
    Resolution.resolve pair waryStarted.location = .ok (.direct ⟨"/w/m"⟩) ∧
    (WatchService.watch pair ⟨"/w/m"⟩ (.target (waryStarted.targetGeneration + 1))
      waryStarted.dropTarget.service).outcome = .error (.refused ⟨"/w/m"⟩) ∧
    (waryStarted.opening (.still pair) manifestChange).map (·.pending) =
      some [.location, .target 1] :=
  calls_of_callsIn 9 [(.still pair, .start)] (new ⟨"/w"⟩ pairConfig wary [pairDocument])
    (P := fun c => flattened.readLink c.location = .error .notDirectory ∧
      Resolution.resolve pair c.location = .ok (.direct ⟨"/w/m"⟩) ∧
      (WatchService.watch pair ⟨"/w/m"⟩ (.target (c.targetGeneration + 1))
        c.dropTarget.service).outcome = .error (.refused ⟨"/w/m"⟩) ∧
      (c.opening (.still pair) manifestChange).map (·.pending) = some [.location, .target 1])
    (by decide +kernel)

/-- A root that is no directory changes nothing. The refused watch costs everything below the
location, and the other route of the same event is served after it. -/
theorem location_fails_whole_wary :
    Roster.Sound wary ∧
    Reached (Honest Roster.Sound []) (new ⟨"/w"⟩ pairConfig wary [pairDocument]) waryStarted ∧
    waryStarted.handle (.still flattened) .location =
      (waryStarted.note [.dispatched .location,
        .warned (.handlerFailed waryStarted.root (.access .notDirectory))],
        some (.access .notDirectory)) ∧
    (∃ c, waryStarted.handle (.still pair) .location =
        (c, some (.watch (.refused ⟨"/w/m"⟩))) ∧ c.index = .empty ∧
      (WatchService.live c.service).Perm waryStarted.locationPart) ∧
    ∃ (served : List (Route × Option Failure)) (log : List Notice),
      (waryStarted.call (.still pair) manifestChange).2 = (served.filterMap (·.2)).head? ∧
      served.map (·.1) = [.location, .target 1] ++ log.filterMap Notice.granted? := by
  have run : Reached (Honest Roster.Sound []) (new ⟨"/w"⟩ pairConfig wary [pairDocument])
      waryStarted := .turn .first trivial
  have sound : Roster.Sound wary := fun _ h => absurd h List.not_mem_nil
  obtain ⟨unreadable, found, refused, queued⟩ := waryStarted_refused
  obtain ⟨unresolved, unwatched, calls⟩ := location_fails_whole Roster.lawful sound run
  obtain ⟨c, he, -, -, -, index, -, live, -⟩ := unwatched (.still pair) _ _ _ found rfl refused
  obtain ⟨c₁, ho, pending⟩ := Option.map_eq_some_iff.1 queued
  obtain ⟨served, log, -, -, -, -, -, -, -, order, answer⟩ := calls (.still pair) _ c₁ ho
  rw [pending] at order
  exact ⟨sound, run, unresolved (.still flattened) _ unreadable (by simp) (by simp) (by simp),
    ⟨c, he, index, live⟩, served, log, answer, order⟩

end Controller

end StackUsage

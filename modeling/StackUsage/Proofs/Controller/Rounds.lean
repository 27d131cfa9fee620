import StackUsage.Proofs.Controller.Failures

/-! A call as a sequence of rounds, one for each route that it handles. A round of the location
attaches at most one watch, one of the real manifest at most one for each unit that the manifest
names, and one of a report none. A watch that is attached puts its own route at the end of the
queue. So the routes that are handled are those that the call came with and then, in the order of
attaching, the one of each watch attached in the call; and the call ends with nothing in the queue
and nothing left to render, whatever failed on the way. -/

namespace StackUsage.Controller

variable {σ : Type}

/-! ### What a round may attach -/

/-- The units that the manifest names on this disk; none if it cannot be found or read. -/
def unitsNamed (d : Disk) (c : Controller σ) : List ReportUnit :=
  ((Resolution.resolve (d 0) c.location).bind (Snapshot.unitsOf d c.config)).toOption.getD []

/-- The routes may be those of the watches that a round of this route attaches on this disk. -/
def Attaches (d : Disk) (c : Controller σ) (route : Route) (granted : List Route) : Prop :=
  match route with
  | .location => granted.length ≤ 1 ∧ ∀ q ∈ granted, ∃ generation, q = .target generation
  | .target _ => ∃ generation, granted.Sublist ((c.unitsNamed d).map (.report generation))
  | .report _ _ => granted = []

/-- Of the same workspace, so that the manifest is looked for at the same place and read alike. -/
structure SameWorkspace (c c' : Controller σ) : Prop where
  root : c'.root = c.root
  config : c'.config = c.config

theorem SameWorkspace.trans {c c₁ c₂ : Controller σ} (h : SameWorkspace c c₁)
    (h' : SameWorkspace c₁ c₂) : SameWorkspace c c₂ :=
  ⟨h'.root.trans h.root, h'.config.trans h.config⟩

theorem SameWorkspace.attaches {c c' : Controller σ} (h : SameWorkspace c c') {d : Disk}
    {route : Route} {granted : List Route} :
    Attaches d c' route granted ↔ Attaches d c route granted := by
  have location : c'.location = c.location := by rw [location, location, h.root, h.config]
  unfold Attaches unitsNamed
  rw [location, h.config]

variable [WatchService σ]

omit [WatchService σ] in
theorem sameWorkspace_warn (warnings : List Warning) (c : Controller σ) :
    SameWorkspace c (c.warn warnings) := ⟨rfl, rfl⟩

theorem sameWorkspace_disposeAll (handles : List Handle) (c : Controller σ) :
    SameWorkspace c (c.disposeAll handles) := by
  rw [disposeAll_eq]
  exact ⟨rfl, rfl⟩

theorem sameWorkspace_attach {t : Tree} {path : Path} {route : Route} {c c₁ : Controller σ}
    {answer : Except Failure Handle} (h : c.attach t path route = (c₁, answer)) :
    SameWorkspace c c₁ := by
  obtain ⟨s, notices, he⟩ := attach_heard t path route c
  rw [h] at he
  change c₁ = _ at he
  rw [he]
  exact ⟨rfl, rfl⟩

theorem sameWorkspace_attachReports (units : List ReportUnit) (d : Disk) (generation : Nat)
    (c : Controller σ) : SameWorkspace c (attachReports d generation c units).1 := by
  induction units generalizing d c with
  | nil => exact ⟨rfl, rfl⟩
  | cons unit rest ih =>
    rw [attachReports]
    split
    · next ha => exact (sameWorkspace_attach ha).trans (ih _ _)
    · next failure ha =>
      have warned := (sameWorkspace_attach ha).trans
        (sameWorkspace_warn [.unwatched unit.reportPath failure] _)
      exact warned.trans (ih _ _)

theorem sameWorkspace_dropTarget (c : Controller σ) : SameWorkspace c c.dropTarget :=
  (sameWorkspace_disposeAll _ c).trans ⟨rfl, rfl⟩

theorem sameWorkspace_forget (c : Controller σ) : SameWorkspace c c.dropReports.clearIndex :=
  (sameWorkspace_disposeAll _ c).trans ⟨rfl, rfl⟩

theorem sameWorkspace_resetTiers (c : Controller σ) : SameWorkspace c c.resetTiers := by
  rw [resetTiers_heard]
  exact ⟨rfl, rfl⟩

theorem sameWorkspace_holdTarget (target : Path) (handle : Handle) (c : Controller σ) :
    SameWorkspace c (c.holdTarget target handle) :=
  (sameWorkspace_disposeAll _ c).trans ⟨rfl, rfl⟩

theorem sameWorkspace_holdReports (handles : List Handle) (c : Controller σ) :
    SameWorkspace c (c.holdReports handles) :=
  (sameWorkspace_disposeAll _ c).trans ⟨rfl, rfl⟩

omit [WatchService σ] in
theorem sameWorkspace_processReport (d : Disk) (unit : ReportUnit) (c : Controller σ) :
    SameWorkspace c (c.processReport d unit) := by
  unfold processReport
  split <;> exact ⟨rfl, rfl⟩

/-- No handler leaves the workspace. -/
theorem Outcome.sameWorkspace {d : Disk} {route : Route} {c : Controller σ} {handled : Handled σ}
    (outcome : Outcome d c route handled) : SameWorkspace c handled.controller := by
  cases outcome with
  | ignored _ => exact ⟨rfl, rfl⟩
  | unresolved _ => exact ⟨rfl, rfl⟩
  | missing _ _ => exact sameWorkspace_resetTiers c
  | moved _ _ ha =>
    exact ((sameWorkspace_dropTarget c).trans (sameWorkspace_attach ha)).trans
      (sameWorkspace_holdTarget _ _ _)
  | refused _ _ ha =>
    exact ((sameWorkspace_dropTarget c).trans (sameWorkspace_attach ha)).trans
      (sameWorkspace_resetTiers _)
  | lost _ => exact sameWorkspace_forget c
  | unread _ _ => exact (sameWorkspace_forget c).trans (sameWorkspace_warn _ _)
  | followed _ _ =>
    exact ((sameWorkspace_forget c).trans (sameWorkspace_attachReports _ _ _ _)).trans
      (sameWorkspace_holdReports _ _)
  | taken unit => exact sameWorkspace_processReport d unit c

theorem attachReports_sublist (units : List ReportUnit) (d : Disk) (generation : Nat)
    (c : Controller σ) : ((attachReports d generation c units).2.map (·.2)).Sublist units := by
  induction units generalizing d c with
  | nil => exact .refl _
  | cons unit rest ih =>
    rw [attachReports]
    split
    · exact (ih _ _).cons_cons unit
    · exact (ih _ _).cons unit

/-- What a handler attaches is within its bounds. -/
theorem Outcome.attaches {d : Disk} {route : Route} {c : Controller σ} {handled : Handled σ}
    (outcome : Outcome d c route handled) : Attaches d c route handled.attached := by
  have none : ∀ route, Attaches d c route [] := by
    intro route
    cases route with
    | location => exact ⟨Nat.zero_le 1, by simp⟩
    | target generation => exact ⟨generation, List.nil_sublist _⟩
    | report generation unit => rfl
  cases outcome with
  | moved _ _ _ => exact ⟨Nat.le_refl 1, by simp⟩
  | @followed manifest units hr hu =>
    have named : c.unitsNamed d = units := by
      rw [unitsNamed, hr, Except.bind, hu]
      rfl
    refine ⟨c.dropReports.clearIndex.reportGeneration, ?_⟩
    rw [named]
    have sub := (attachReports_sublist units (d.after 3)
      c.dropReports.clearIndex.reportGeneration c.dropReports.clearIndex).map
        (Route.report c.dropReports.clearIndex.reportGeneration)
    rw [List.map_map] at sub
    exact sub
  | _ => exact none _

/-! ### Rounds -/

/-- A route that is handled, and what is written down after it until the next one. -/
structure ServedRound where
  route : Route
  notices : List Notice

namespace ServedRound

def log (r : ServedRound) : List Notice := .dispatched r.route :: r.notices

/-- The routes of the watches attached in the round. -/
def granted (r : ServedRound) : List Route := r.notices.filterMap Notice.granted?

end ServedRound

/-- Serving a route is one round: what it attaches is within its bounds and goes to the end of the
queue. -/
theorem serve_round (d : Disk) (route : Route) (rest : List Route) (c : Controller σ) :
    ∃ r : ServedRound, r.route = route ∧ (c.serve d route rest).1.journal = c.journal ++ r.log ∧
      r.notices.filterMap Notice.handled? = [] ∧
      (c.serve d route rest).1.pending = rest ++ r.granted ∧
      Attaches d c route r.granted ∧ SameWorkspace c (c.serve d route rest).1 := by
  obtain ⟨handled, outcome, -, warnings, he⟩ := serve_outcome d route rest c
  obtain ⟨notices, hj, hg, hd⟩ := outcome.grants
  have warned := Notice.filterMap_warned warnings
  have granted :
      (notices ++ warnings.map Notice.warned).filterMap Notice.granted? = handled.attached := by
    rw [List.filterMap_append, hg, warned.1, List.append_nil]
  have noted : SameWorkspace c ((c.withPending rest).note [.dispatched route]) := ⟨rfl, rfl⟩
  refine ⟨⟨route, notices ++ warnings.map .warned⟩, rfl, ?_, ?_, ?_, ?_, ?_⟩
  · rw [he]
    change handled.controller.journal ++ _ = _
    rw [hj]
    simp [ServedRound.log, note, withPending]
  · rw [List.filterMap_append, hd, warned.2, List.append_nil]
  · rw [he, ServedRound.granted, granted]
    rfl
  · rw [ServedRound.granted, granted, ← noted.attaches]
    exact outcome.attaches
  · rw [he]
    exact (noted.trans outcome.sameWorkspace).trans ⟨rfl, rfl⟩

/-- The state of a queue after some rounds: what they handled, in front of what waits, is what was
queued first and then what they attached; bounded evaluation has used up one of its bound for
each. -/
structure Turning (w : World) (n : Nat) (first : Option Failure) (c : Controller σ) (m : Nat)
    (first' : Option Failure) (c' : Controller σ) (rounds : List ServedRound) : Prop where
  moment : m = n + rounds.length
  journal : c'.journal = c.journal ++ rounds.flatMap ServedRound.log
  order : rounds.map (·.route) ++ c'.pending = c.pending ++ rounds.flatMap ServedRound.granted
  single : ∀ r ∈ rounds, r.notices.filterMap Notice.handled? = []
  bounds : ∀ x ∈ rounds.zipIdx n, Attaches (w x.2) c x.1.route x.1.granted
  same : SameWorkspace c c'
  evaluated : ∀ bound, drainIn w (bound + rounds.length) n first c = drainIn w bound m first' c'

theorem Turning.serve {w : World} {n m : Nat} {first first' : Option Failure}
    {c c' : Controller σ} {rounds : List ServedRound} (h : Turning w n first c m first' c' rounds)
    {route : Route} {rest : List Route} (hp : c'.pending = route :: rest) :
    ∃ rounds', Turning w n first c (m + 1) (first'.or (c'.serve (w m) route rest).2)
      (c'.serve (w m) route rest).1 rounds' := by
  obtain ⟨r, rfl, hj, single, hq, attaches, same⟩ := serve_round (w m) route rest c'
  refine ⟨rounds ++ [r], ?_, ?_, ?_, ?_, ?_, h.same.trans same, fun bound => ?_⟩
  · rw [h.moment, List.length_append, List.length_singleton, Nat.add_assoc]
  · rw [hj, h.journal]
    simp
  · have order := h.order
    rw [hp] at order
    -- The route goes over from what waits to what was handled; what it attached joins both sides.
    rw [hq, List.flatMap_append, ← List.append_assoc c.pending, ← order]
    simp
  · intro x hx
    rcases List.mem_append.1 hx with hx | hx
    · exact h.single x hx
    · rwa [List.mem_singleton.1 hx]
  · intro x hx
    rw [List.zipIdx_append, ← h.moment] at hx
    rcases List.mem_append.1 hx with hx | hx
    · exact h.bounds x hx
    · rw [List.mem_singleton.1 hx]
      exact h.same.attaches.1 attaches
  · rw [List.length_append, List.length_singleton, ← Nat.add_assoc, Nat.add_right_comm, h.evaluated,
      drainIn, hp]

/-- What the rounds of a queue come to: they handle what it held and then what they attached, and a
bound above their number is enough to evaluate them. -/
structure InRounds (w : World) (n : Nat) (c : Controller σ) (rounds : List ServedRound)
    (after : List Notice) : Prop where
  order : rounds.map (·.route) = c.pending ++ rounds.flatMap ServedRound.granted
  single : ∀ r ∈ rounds, r.notices.filterMap Notice.handled? = []
  bounds : ∀ x ∈ rounds.zipIdx n, Attaches (w x.2) c x.1.route x.1.granted
  ended : after.filterMap Notice.handled? = [] ∧ after.filterMap Notice.granted? = []
  journal : (c.drain w n none).1.journal = c.journal ++ (rounds.flatMap ServedRound.log ++ after)
  evaluated : ∀ bound, rounds.length < bound → drainIn w bound n none c = some (c.drain w n none)

theorem drain_in_rounds (w : World) (n : Nat) (c : Controller σ) :
    ∃ rounds after, InRounds w n c rounds after := by
  have start : Turning w n none c n none c [] :=
    ⟨rfl, by simp, by simp, by simp, by simp, ⟨rfl, rfl⟩, fun _ => rfl⟩
  obtain ⟨m, c', hp, ⟨rounds, h⟩, he⟩ := drain_rule (w := w)
    (P := fun m first c' => ∃ rounds, Turning w n none c m first c' rounds)
    (fun hp ⟨_, h⟩ => h.serve hp) n none ⟨[], start⟩
  obtain ⟨after, hj, hg, hd⟩ := grants_flush (w m) c'
  -- Nothing waits any more, so the rounds have handled all that was queued.
  have order := h.order
  rw [hp, List.append_nil] at order
  refine ⟨rounds, after, order, h.single, h.bounds, ⟨hd, hg⟩, ?_, fun bound enough => ?_⟩
  · rw [he, hj, h.journal, List.append_assoc]
  · obtain ⟨more, rfl⟩ : ∃ more, bound = more + 1 + rounds.length :=
      ⟨bound - rounds.length - 1, by omega⟩
    rw [h.evaluated, drainIn, hp, ← he]

/-! ### Calls -/

/-- The location's route, if the service has lost events. -/
def lostRoutes (s : σ) : List Route := if (WatchService.takeOverflow s).1 then [.location] else []

/-- The routes that a call comes with: the one it is made for, or those that its event yields and
the location's if events were lost. -/
def incoming (w : World) (call : Call) (c : Controller σ) : List Route :=
  match call with
  | .handle route => [route]
  | .handleEvent (.ok event) =>
    let routing := WatchService.route (w 0 0) event c.service
    routing.routes ++ lostRoutes routing.service
  | .handleEvent (.error _) => lostRoutes c.service
  | _ => []

/-- The routes of watches that a call attaches before its first round: the location's, if a start is
granted it. -/
def opened (w : World) (call : Call) (c : Controller σ) : List Route :=
  match call with
  | .start =>
    if (WatchService.watch (w 0 0) c.location .location c.service).outcome.isOk then [.location]
    else []
  | _ => []

omit [WatchService σ] in
/-- Hearing from the service and being given routes attaches nothing. -/
theorem grants_told (s : σ) (warnings : List Warning) (routes : List Route) (c : Controller σ) :
    Grants [] c ((c.heard s (warnings.map .warned)).withPending routes) :=
  grants_of_journal rfl (by simp [Notice.isOfQueue])

theorem catchUp_queues (c : Controller σ) :
    Grants [] c c.catchUp ∧ SameWorkspace c c.catchUp ∧
      c.catchUp.pending = c.pending ++ lostRoutes c.service := by
  rw [catchUp_eq, lostRoutes]
  split
  · exact ⟨grants_told _ [.overflow] _ c, ⟨rfl, rfl⟩, rfl⟩
  · exact ⟨grants_heard_warned _ [] c, ⟨rfl, rfl⟩, (List.append_nil _).symm⟩

/-- An event queues the routes that it yields, and a delivery that failed queues none. -/
theorem receive_queues (w : World) (event : Except String FileEvent) (c : Controller σ) :
    Grants [] c (c.receive (w 0 0) event) ∧ SameWorkspace c (c.receive (w 0 0) event) ∧
      (c.receive (w 0 0) event).pending ++ lostRoutes (c.receive (w 0 0) event).service =
        c.pending ++ c.incoming w (.handleEvent event) := by
  cases event with
  | ok event =>
    let routing := WatchService.route (w 0 0) event c.service
    refine ⟨grants_told routing.service routing.warnings (c.pending ++ routing.routes) c,
      ⟨rfl, rfl⟩, ?_⟩
    rw [incoming, ← List.append_assoc]
    rfl
  | error text => exact ⟨grants_warn [.eventFailed text] c, ⟨rfl, rfl⟩, rfl⟩

/-- Before its first round a call attaches at most the location's watch, and queues what it comes
with and the route of that watch. -/
theorem opening_queues {w : World} {call : Call} {c c₁ : Controller σ}
    (ho : c.opening w call = some c₁) :
    Grants (c.opened w call) c c₁ ∧ SameWorkspace c c₁ ∧
      c₁.pending = c.pending ++ (c.incoming w call ++ c.opened w call) := by
  cases call with
  | start =>
    simp only [opening] at ho
    obtain ⟨id, granted, he⟩ | ⟨refusal, -, he⟩ := attach_cases (w 0 0) c.location .location c
    · have attached := grants_attach he
      have same := sameWorkspace_attach he
      have opened : c.opened w .start = [.location] := by rw [Controller.opened, granted]; rfl
      rw [he] at ho
      cases ho
      rw [opened]
      refine ⟨attached.trans (grants_disposeAll _ _), ?_, ?_⟩
      · exact (same.trans (sameWorkspace_disposeAll _ _)).trans ⟨rfl, rfl⟩
      · rw [setLocationWatch, disposeAll_eq]
        rfl
    · rw [he] at ho
      cases ho
  | handle route =>
    cases ho
    exact ⟨.refl c, ⟨rfl, rfl⟩, rfl⟩
  | handleEvent event =>
    cases ho
    obtain ⟨received, kept, queued⟩ := receive_queues w event c
    obtain ⟨caught, same, pending⟩ := catchUp_queues (c.receive (w 0 0) event)
    refine ⟨received.trans caught, kept.trans same, ?_⟩
    rw [pending, queued]
    exact congrArg _ (List.append_nil _).symm
  | documentsShown paths => cases ho
  | refresh => cases ho

/-- A call that does not come to its queue attaches nothing and came with nothing. -/
theorem unopened_queues {w : World} {call : Call} {c : Controller σ}
    (ho : c.opening w call = none) :
    Grants [] c (c.call w call).1 ∧ c.incoming w call = [] ∧ c.opened w call = [] := by
  cases call with
  | start =>
    rw [call_start_of_unopened ho]
    simp only [opening] at ho
    obtain ⟨id, -, he⟩ | ⟨refusal, refused, he⟩ := attach_cases (w 0 0) c.location .location c
    · rw [he] at ho
      cases ho
    · refine ⟨?_, rfl, ?_⟩
      · rw [he]
        exact grants_heard_warned _ _ c
      · rw [opened, refused]
        rfl
  | handle route => cases ho
  | handleEvent event => cases ho
  | documentsShown paths =>
    exact ⟨grants_of_journal rfl (isOfQueue_announcement _ none c.index), rfl, rfl⟩
  | refresh => exact ⟨grants_publish (w 0) .all c, rfl, rfl⟩

/-- The states that turns of any kind lead to, with routes of any origin; after a disposal the
controller may be used again. -/
inductive Lived (first : Controller σ) : Controller σ → Prop
  | first : Lived first first
  | turn {c : Controller σ} (t : Turn σ) : Lived first c → Lived first (c.turn t)
  | dispose {c : Controller σ} : Lived first c → Lived first c.dispose

theorem Lived.idle {root : Path} {config : Config} {service : σ} {documents : List Document}
    {c : Controller σ} (life : Lived (new root config service documents) c) : Idle c := by
  induction life with
  | first => exact ⟨rfl, rfl⟩
  | turn t _ ih =>
    cases t with
    | call w call => exact idle_call ih w call
    | change service => exact ⟨ih.pending, ih.renderAll⟩
    | visible documents => exact ⟨ih.pending, ih.renderAll⟩
  | dispose _ ih =>
    refine ⟨rfl, ?_⟩
    simp only [Controller.dispose, setReportWatches, setTargetWatch, setLocationWatch,
      disposeAll_eq]
    exact ih.renderAll

/-- A call ends with nothing left over, and every watch that it attaches is followed by one round
of its own route. Whatever the disks, the service, the failures and the routes it is called with,
what a call writes down is a series of rounds, one for each route handled, between what an opening
and a last rendering write. The routes handled are those that the call came with and then, in the
order of attaching, the one of each watch attached in the call. A round of the location attaches at
most one watch, one of the real manifest at most one for each unit named, one of a report none. The
call is over after as many rounds, and leaves an empty queue and nothing to render. -/
theorem call_in_rounds {root : Path} {config : Config} {service : σ} {documents : List Document}
    {c : Controller σ} (life : Lived (new root config service documents) c) (w : World)
    (call : Call) :
    Idle (c.call w call).1 ∧
    ∃ (before : List Notice) (rounds : List ServedRound) (after : List Notice),
      (c.call w call).1.journal =
        c.journal ++ (before ++ (rounds.flatMap ServedRound.log ++ after)) ∧
      (before.filterMap Notice.handled? = [] ∧
        before.filterMap Notice.granted? = c.opened w call) ∧
      (∀ r ∈ rounds, r.notices.filterMap Notice.handled? = []) ∧
      (after.filterMap Notice.handled? = [] ∧ after.filterMap Notice.granted? = []) ∧
      rounds.map (·.route) =
        c.incoming w call ++ (c.opened w call ++ rounds.flatMap ServedRound.granted) ∧
      (∀ x ∈ rounds.zipIdx 1, Attaches (w x.2) c x.1.route x.1.granted) ∧
      ∀ bound, rounds.length < bound → c.callIn bound w call = some (c.call w call) := by
  have idle : Idle c := life.idle
  refine ⟨idle_call idle w call, ?_⟩
  cases ho : c.opening w call with
  | none =>
    obtain ⟨⟨before, hj, hg, hd⟩, incoming, opened⟩ := unopened_queues ho
    rw [incoming, opened]
    refine ⟨before, [], [], by simpa using hj, ⟨hd, hg⟩, by simp, ⟨rfl, rfl⟩, rfl, by simp,
      fun bound _ => ?_⟩
    rw [callIn, ho]
  | some c₁ =>
    obtain ⟨⟨before, hj, hg, hd⟩, same, pending⟩ := opening_queues ho
    obtain ⟨rounds, after, h⟩ := drain_in_rounds w 1 c₁
    rw [call_eq_drain ho]
    refine ⟨before, rounds, after, ?_, ⟨hd, hg⟩, h.single, h.ended, ?_, ?_, ?_⟩
    · rw [h.journal, hj, List.append_assoc]
    · rw [h.order, pending, idle.pending, List.nil_append, List.append_assoc]
    · exact fun x hx => same.attaches.1 (h.bounds x hx)
    · intro bound enough
      rw [callIn, ho]
      exact h.evaluated bound enough

theorem incoming_pairStarted :
    pairStarted.incoming (.still pair) manifestChange = [.location, .target 1] :=
  calls_of_callsIn 9 [(.still pair, .start)] (pairNew [pairDocument])
    (P := fun c => c.incoming (.still pair) manifestChange = [.location, .target 1])
    (by decide +kernel)

/-- An event that both watches on the manifest hear of. -/
theorem call_in_rounds_pair :
    Lived (pairNew [pairDocument]) pairStarted ∧
    Idle (pairStarted.call (.still pair) manifestChange).1 ∧
    ∃ rounds : List ServedRound,
      rounds.map (·.route) = [.location, .target 1] ++ rounds.flatMap ServedRound.granted ∧
      (∀ x ∈ rounds.zipIdx 1, pairStarted.Attaches (World.still pair x.2) x.1.route x.1.granted) ∧
      pairStarted.callIn (rounds.length + 1) (.still pair) manifestChange =
        some (pairStarted.call (.still pair) manifestChange) := by
  have life : Lived (pairNew [pairDocument]) pairStarted := .turn _ .first
  obtain ⟨idle, -, rounds, -, -, -, -, -, order, bounds, evaluated⟩ :=
    call_in_rounds life (.still pair) manifestChange
  rw [incoming_pairStarted] at order
  exact ⟨life, idle, rounds, order, bounds, evaluated _ (Nat.lt_succ_self _)⟩

end StackUsage.Controller

import StackUsage.Proofs.Controller.Holdings
import StackUsage.Proofs.Controller.Moments
import StackUsage.Proofs.Controller.Outcome
import StackUsage.Proofs.Snapshot

/-! Exactly the right watches are alive. Whatever the calls, the trees and the refusals, after every
call the live watches are those of others and one for each handle that the controller holds, and the
index has entries for exactly the units whose reports are watched. -/

namespace StackUsage.Controller

open WatchService (Lawful Holding)

variable {σ : Type} [WatchService σ] {sound : σ → Prop}

/-! ### Handling a route -/

/-- The real manifest is watched whenever one was found. -/
structure Tended (sound : σ → Prop) (others : List LiveWatch) (queue : List Route)
    (held : List (Handle × ReportUnit)) (c : Controller σ) : Prop
    extends Kept sound others queue held c where
  watched : c.targetWatch.isSet = c.target.isSome

section

variable {others : List LiveWatch} {queue rest : List Route} {held : List (Handle × ReportUnit)}
  {c : Controller σ}

theorem Tended.note (h : Tended sound others queue held c) {notices : List Notice}
    (hn : Quiet notices) : Tended sound others queue held (c.note notices) :=
  ⟨h.toKept.note hn, h.watched⟩

theorem Tended.pop {route : Route} (h : Tended sound others (route :: rest) held c)
    (hr : ∀ unit, route ≠ .report c.reportGeneration unit) : Tended sound others rest held c :=
  ⟨h.toKept.pop hr, h.watched⟩

theorem tended_resetTiers (law : Lawful σ sound) (h : Kept sound others queue held c) :
    Tended sound others queue [] c.resetTiers := by
  refine ⟨h.resetTiers law, ?_⟩
  have hw : c.resetTiers.targetWatch = .empty := by
    rw [resetTiers, dropReports_eq, dropTarget_eq]
    rfl
  rw [hw]
  rfl

theorem tended_moved (law : Lawful σ sound) (h : Kept sound others queue held c) {t : Tree}
    {target : Path} {handle : Handle} {c₁ : Controller σ}
    (ha : c.dropTarget.attach t target (.target (c.targetGeneration + 1)) = (c₁, .ok handle)) :
    Tended sound others (queue ++ [.target (c.targetGeneration + 1)]) held
      (c₁.holdTarget target handle) := by
  have kept := h.dropTarget law
  have empty : c.dropTarget.targetWatch = .empty := by rw [dropTarget_eq]
  obtain ⟨id, c₂, he, hg⟩ | ⟨failure, c₂, he, -⟩ :=
    granted_attach law kept.holding t target (.target (c.targetGeneration + 1))
  · cases he.symm.trans ha
    exact ⟨kept.holdTarget empty hg, rfl⟩
  · cases he.symm.trans ha

theorem tended_refused (law : Lawful σ sound) (h : Kept sound others queue held c) {t : Tree}
    {target : Path} {failure : Failure} {c₁ : Controller σ}
    (ha : c.dropTarget.attach t target (.target (c.targetGeneration + 1)) = (c₁, .error failure)) :
    Tended sound others queue [] c₁.resetTiers := by
  have kept := h.dropTarget law
  obtain ⟨id, c₂, he, -⟩ | ⟨refusal, c₂, he, hg⟩ :=
    granted_attach law kept.holding t target (.target (c.targetGeneration + 1))
  · cases he.symm.trans ha
  · cases he.symm.trans ha
    exact tended_resetTiers law (kept.refused hg)

theorem tended_forgotten (law : Lawful σ sound) (h : Tended sound others queue held c) :
    Tended sound others queue [] c.dropReports.clearIndex := by
  refine ⟨h.toKept.forget law, ?_⟩
  rw [dropReports_eq]
  exact h.watched

/-- Every watched report is followed by a run of its route, so nothing is missed if all entries
were forgotten before. -/
theorem tended_watchReports (law : Lawful σ sound) (h : Tended sound others queue [] c) (d : Disk)
    (units : List ReportUnit) :
    Tended sound others (queue ++ (c.watchReports d units).attached)
      (attachReports d c.reportGeneration c units).2 (c.watchReports d units).controller := by
  obtain ⟨hg, alive⟩ := granted_attachReports law c.reportGeneration units d h.holding
  rw [watchReports]
  generalize attachReports d c.reportGeneration c units = attached at hg alive
  obtain ⟨c₁, held⟩ := attached
  refine ⟨h.toKept.holdReports hg alive, ?_⟩
  obtain ⟨s, notices, rfl⟩ := hg.heard
  dsimp only [holdReports, setReportWatches]
  rw [disposeAll_eq]
  exact h.watched

/-- A report is taken in only for a watched unit, and its entry makes good for its route. -/
theorem tended_processReport {unit : ReportUnit}
    (h : Tended sound others (.report c.reportGeneration unit :: rest) held c) (d : Disk) :
    Tended sound others rest held (c.processReport d unit) := by
  obtain ⟨x, hx, rfl⟩ := (h.queued _ List.mem_cons_self).2 rfl
  have applied : Tended sound others rest held
      { c with index := c.index.apply x.2.sourceKey (x.2.read d c.config).usages } :=
    { h with
      keys := by
        intro key hk
        rcases Index.mem_keys_apply.1 hk with hk | rfl
        · exact h.keys key hk
        · exact ⟨x, hx, rfl⟩
      covered := by
        intro y hy
        rcases h.covered y hy with hk | hq
        · exact .inl (Index.mem_keys_apply.2 (.inl hk))
        · rcases List.mem_cons.1 hq with he | hq
          · have hu : y.2 = x.2 := (Route.report.inj he).2
            exact .inl (Index.mem_keys_apply.2 (.inr (by rw [hu])))
          · exact .inr hq
      queued := fun route hq => h.queued route (List.mem_cons_of_mem _ hq) }
  have indexed : Quiet [.indexed x.2.sourceKey] := by simp [Quiet]
  have taken := (applied.note (quiet_warned (x.2.read d c.config).warnings)).note indexed
  unfold processReport
  split
  · exact taken
  · exact taken.note (quiet_announced _ _)

/-- Handling the head of the queue and putting what it attaches at the end keeps the watches in
order. -/
theorem Outcome.tended (law : Lawful σ sound) {d : Disk} {route : Route} {handled : Handled σ}
    (o : Outcome d c route handled) (h : Tended sound others (route :: rest) held c) :
    ∃ held', Tended sound others (rest ++ handled.attached) held' handled.controller := by
  cases o with
  | ignored old => exact ⟨held, by simpa using h.pop old.ne_report⟩
  | unresolved _ => exact ⟨held, by simpa using h.pop (by simp)⟩
  | missing _ _ => exact ⟨[], by simpa using tended_resetTiers law (h.pop (by simp)).toKept⟩
  | moved _ _ ha => exact ⟨held, tended_moved law (h.pop (by simp)).toKept ha⟩
  | refused _ _ ha => exact ⟨[], by simpa using tended_refused law (h.pop (by simp)).toKept ha⟩
  | lost _ => exact ⟨[], by simpa using tended_forgotten law (h.pop (by simp))⟩
  | unread _ _ =>
    have forgotten := tended_forgotten law (h.pop (by simp))
    refine ⟨[], ?_⟩
    rw [List.append_nil]
    exact forgotten.note (quiet_warned _)
  | followed _ _ => exact ⟨_, tended_watchReports law (tended_forgotten law (h.pop (by simp))) _ _⟩
  | taken unit => exact ⟨held, by simpa using tended_processReport h d⟩

/-! ### Calls -/

theorem Tended.heard (h : Tended sound others queue held c) {s : σ} {notices : List Notice}
    (hs : Holding sound others (c.own held) s) (hn : Quiet notices) :
    Tended sound others queue held (c.heard s notices) := ⟨h.toKept.heard hs hn, h.watched⟩

theorem Tended.enqueue (h : Tended sound others c.pending held c) {routes : List Route}
    (hr : ∀ route ∈ routes, Accounted held c.reportGeneration route) :
    Tended sound others (c.enqueue routes).pending held (c.enqueue routes) :=
  ⟨(h.toKept.append hr).withPending _, h.watched⟩

theorem Tended.withPending (h : Tended sound others queue held c) (routes : List Route) :
    Tended sound others queue held (c.withPending routes) :=
  ⟨h.toKept.withPending routes, h.watched⟩

/-- A route is taken from the queue and written down. -/
theorem Tended.dispatched (h : Tended sound others c.pending held c) {route : Route}
    (hp : c.pending = route :: rest) :
    Tended sound others (route :: rest) held
      ((c.withPending rest).note [.dispatched route]) := by
  rw [hp] at h
  exact (h.withPending rest).note (by simp [Quiet])

theorem tended_serve (law : Lawful σ sound) {route : Route}
    (h : Tended sound others c.pending held c) (hp : c.pending = route :: rest) (d : Disk) :
    ∃ held', Tended sound others (c.serve d route rest).1.pending held'
      (c.serve d route rest).1 := by
  obtain ⟨handled, outcome, -, warnings, he⟩ := serve_outcome d route rest c
  obtain ⟨held', h'⟩ := outcome.tended law (h.dispatched hp)
  rw [he]
  exact ⟨held', (h'.withPending _).note (quiet_warned warnings)⟩

theorem tended_flush (h : Tended sound others queue held c) (d : Disk) :
    Tended sound others queue held (c.flush d) ∧ (c.flush d).pending = c.pending := by
  unfold flush
  split
  · have h' : Tended sound others queue held { c with renderAll := false } := { h with }
    exact ⟨h'.note (quiet_announced _ _), rfl⟩
  · exact ⟨h, rfl⟩

theorem tended_drain (law : Lawful σ sound) (h : Tended sound others c.pending held c) (w : World)
    (n : Nat) (first : Option Failure) :
    ∃ held', Tended sound others [] held' (c.drain w n first).1 ∧
      (c.drain w n first).1.pending = [] := by
  obtain ⟨m, c', hp, ⟨held', h'⟩, he⟩ := drain_rule (w := w)
    (P := fun _ _ c => ∃ held, Tended sound others c.pending held c)
    (fun hp ⟨held, h⟩ => tended_serve law h hp _) n first ⟨held, h⟩
  rw [hp] at h'
  obtain ⟨hf, hq⟩ := tended_flush h' (w m)
  rw [he]
  exact ⟨held', hf, hq.trans hp⟩

/-- Calls with routes that were issued to the controller at some time, their watches live or not,
and changes of the service that leave the live watches alone. What the host shows may change in any
way. An event may yield a route of a watch
of others only if that route was issued to the controller too; without others this asks nothing. -/
def Honest (sound : σ → Prop) (others : List LiveWatch) (c : Controller σ) : Turn σ → Prop
  | .call _ (.handle route) => c.Issued route
  | .call w (.handleEvent (.ok event)) =>
    ∀ route ∈ (WatchService.route (w 0 0) event c.service).routes,
      (∃ v ∈ others, v.route = route) → c.Issued route
  | .call _ _ => True
  | .change s => sound s ∧ (WatchService.live s).Perm (WatchService.live c.service)
  | .visible _ => True

theorem tended_receive (law : Lawful σ sound) (h : Tended sound others c.pending held c) (w : World)
    {event : Except String FileEvent}
    (honest : Honest sound others c (.call w (.handleEvent event))) :
    Tended sound others (c.receive (w 0 0) event).pending held (c.receive (w 0 0) event) := by
  cases event with
  | ok event =>
    have holding := h.holding.move (law.sound_route (w 0 0) event h.holding.sound)
      (law.live_route (w 0 0) event h.holding.sound)
    have moved := h.heard holding
      (quiet_warned (WatchService.route (w 0 0) event c.service).warnings)
    refine moved.enqueue fun route hr => ?_
    obtain ⟨v, hv, rfl⟩ := law.routes_live (w 0 0) event h.holding.sound route hr
    rcases List.mem_append.1 (h.holding.live.mem_iff.1 hv) with hv' | hv'
    · exact h.issued v.route (honest v.route hr ⟨v, hv', rfl⟩)
    · exact accounted_own hv'
  | error text => exact h.note (quiet_warned [.eventFailed text])

theorem tended_catchUp (law : Lawful σ sound) (h : Tended sound others c.pending held c) :
    Tended sound others c.catchUp.pending held c.catchUp := by
  have holding := h.holding.move (law.sound_takeOverflow h.holding.sound)
    (law.live_takeOverflow h.holding.sound)
  rw [catchUp_eq]
  split
  · exact (h.heard holding (quiet_warned [.overflow])).enqueue (by simp [Accounted])
  · exact h.heard holding (by simp [Quiet])

theorem tended_opening (law : Lawful σ sound) (h : Tended sound others c.pending held c)
    {w : World} {call : Call} (honest : Honest sound others c (.call w call)) {c₁ : Controller σ}
    (ho : c.opening w call = some c₁) : Tended sound others c₁.pending held c₁ := by
  cases call with
  | start =>
    simp only [opening] at ho
    obtain ⟨id, c₂, he, hg⟩ | ⟨failure, c₂, he, -⟩ :=
      granted_attach law h.holding (w 0 0) c.location .location
    · rw [he] at ho
      cases ho
      have watched : Tended sound others c.pending held
          (c₂.setLocationWatch (c₂.locationWatch.set (.new id))) := by
        refine ⟨h.toKept.setLocationWatch law hg, ?_⟩
        obtain ⟨s, notices, rfl⟩ := hg.heard
        rw [setLocationWatch, disposeAll_eq]
        exact h.watched
      have pending : c.pending =
          (c₂.setLocationWatch (c₂.locationWatch.set (.new id))).pending := by
        obtain ⟨s, notices, rfl⟩ := hg.heard
        rw [setLocationWatch, disposeAll_eq]
        rfl
      rw [pending] at watched
      exact watched.enqueue (by simp [Accounted])
    · rw [he] at ho
      cases ho
  | handle route =>
    cases ho
    have honest : c.Issued route := honest
    exact h.enqueue (by simpa using h.issued route honest)
  | handleEvent event =>
    cases ho
    exact tended_catchUp law (tended_receive law h w honest)
  | documentsShown paths => cases ho
  | refresh => cases ho

/-- A call that does not come to its queue leaves everything as it was. -/
theorem tended_unopened (law : Lawful σ sound) (h : Tended sound others queue held c) {w : World}
    {call : Call} (ho : c.opening w call = none) :
    Tended sound others queue held (c.call w call).1 ∧ (c.call w call).1.pending = c.pending := by
  cases call with
  | start =>
    simp only [opening] at ho
    simp only [Controller.call, start]
    obtain ⟨id, c₁, he, -⟩ | ⟨failure, c₁, he, hg⟩ :=
      granted_attach law h.holding (w 0 0) c.location .location
    · rw [he] at ho
      cases ho
    · rw [he]
      obtain ⟨s, notices, rfl⟩ := hg.heard
      exact ⟨⟨h.toKept.refused hg, h.watched⟩, rfl⟩
  | handle route => cases ho
  | handleEvent event => cases ho
  | documentsShown paths => exact ⟨h.note (quiet_announced _ _), rfl⟩
  | refresh => exact ⟨h.note (quiet_announced _ _), rfl⟩

theorem tended_turn (law : Lawful σ sound) {t : Turn σ} (h : Tended sound others [] held c)
    (hp : c.pending = []) (honest : Honest sound others c t) :
    ∃ held', Tended sound others [] held' (c.turn t) ∧ (c.turn t).pending = [] := by
  cases t with
  | change s =>
    have kept : Kept sound others [] held (c.turn (.change s)) :=
      { h.toKept with holding := h.holding.move honest.1 honest.2 }
    exact ⟨held, ⟨kept, h.watched⟩, hp⟩
  | visible documents =>
    have kept : Kept sound others [] held (c.turn (.visible documents)) := { h.toKept with }
    exact ⟨held, ⟨kept, h.watched⟩, hp⟩
  | call w call =>
    simp only [turn]
    cases ho : c.opening w call with
    | none =>
      obtain ⟨h', hp'⟩ := tended_unopened law h ho
      exact ⟨held, h', hp'.trans hp⟩
    | some c₁ =>
      rw [call_eq_drain ho]
      rw [← hp] at h
      exact tended_drain law (tended_opening law h honest ho) w 1 none

theorem tended_new {service : σ} (hs : sound service) (root : Path) (config : Config)
    (documents : List Document) :
    Tended sound (WatchService.live service) [] [] (new root config service documents) where
  holding := .nil hs
  reports := rfl
  alive_location := by simp [new, Slot.empty]
  alive_target := by simp [new, Slot.empty]
  alive_reports := by simp [new, Batch.empty]
  placed := by simp [new, Slot.empty, Slot.isSet]
  location_iff := by simp [new, Slot.empty, Slot.isSet, Issued]
  keys := by simp [new]
  covered := by simp
  issued := by simp [new, Issued]
  queued := by simp
  watched := rfl

/-- Disposing of a controller leaves only the watches of others. -/
theorem live_dispose (law : Lawful σ sound) (h : Kept sound others queue held c) :
    (WatchService.live c.dispose.service).Perm others := by
  have hs : c.dispose.service = releaseAll (released c.locationWatch.current.toList)
      (releaseAll (released c.targetWatch.current.toList)
        (releaseAll (released c.reportWatches.items) c.service)) := by
    simp only [dispose, setReportWatches, setTargetWatch, setLocationWatch, disposeAll_eq]
    rfl
  have holding : Holding sound others
      (reportPart c.reportGeneration held ++ (c.targetPart ++ (c.locationPart ++ [])))
      c.service := by
    refine h.holding.perm (List.perm_append_comm.trans ?_)
    rw [List.append_nil, ← List.append_assoc]
    exact List.perm_append_comm.append_right _
  have reports := holding_released law holding h.alive_reports h.ids_reportPart
  have target := holding_released law reports h.alive_target (ids_targetPart h.placed)
  have location := holding_released law target h.alive_location (ids_locationPart c)
  rw [hs]
  simpa using location.live

/-- How many watches the tiers hold together. -/
def watchCount (c : Controller σ) : Nat :=
  c.tiers.location.toNat + c.tiers.target.toNat + c.tiers.reports

theorem watchCount_dispose (c : Controller σ) : c.dispose.watchCount = 0 := by
  simp only [dispose, setReportWatches, setTargetWatch, setLocationWatch, disposeAll_eq]
  rfl

omit [WatchService σ] in
theorem length_own (hr : c.reportWatches.items = held.map (·.1))
    (hw : c.targetWatch.isSet = c.target.isSome) : (c.own held).length = c.watchCount := by
  have location : c.locationPart.length = c.locationWatch.isSet.toNat := by
    cases hc : c.locationWatch.current <;> simp [locationPart, Slot.isSet, hc]
  have target : c.targetPart.length = c.targetWatch.isSet.toNat := by
    unfold Slot.isSet at hw ⊢
    cases hc : c.targetWatch.current with
    | none => simp [targetPart, hc]
    | some handle =>
      obtain ⟨path, hp⟩ := Option.isSome_iff_exists.1 (hw.symm.trans (by rw [hc]; rfl))
      simp [targetPart, hc, hp]
  have reports : (reportPart c.reportGeneration held).length = c.reportWatches.size := by
    simp [reportPart, Batch.size, hr]
  rw [own, List.length_append, List.length_append, location, target, reports, watchCount, tiers,
    Nat.add_assoc]

end

/-- After any run of honest turns the live watches are exactly those that were there before and one
for each handle held, and the index has entries for exactly the units whose reports are watched.
The manifest's location is watched once a watch was granted on it, and the real manifest if one was
found. Disposing of the controller leaves none of its watches. -/
theorem watches_accounted {sound : σ → Prop} (law : Lawful σ sound) {root : Path} {config : Config}
    {service : σ} {documents : List Document} {c : Controller σ} (hs : sound service)
    (run : Reached (Honest sound (WatchService.live service))
      (new root config service documents) c) :
    ∃ held : List (Handle × ReportUnit),
      c.reportWatches.items = held.map (·.1) ∧
      (WatchService.live c.service).Perm (WatchService.live service ++ c.own held) ∧
      ((c.own held).map (·.id)).Nodup ∧
      (WatchService.live c.service).length = (WatchService.live service).length + c.watchCount ∧
      (c.locationWatch.isSet = true ↔ c.Issued .location) ∧
      c.targetWatch.isSet = c.target.isSome ∧
      (∀ key, key ∈ c.index.keys ↔ ∃ x ∈ held, x.2.sourceKey = key) ∧
      (WatchService.live c.dispose.service).Perm (WatchService.live service) ∧
      c.dispose.watchCount = 0 := by
  obtain ⟨⟨held, h⟩, -⟩ := run.induct
    (P := fun c => (∃ held, Tended sound (WatchService.live service) [] held c) ∧ c.pending = [])
    ⟨⟨[], tended_new hs root config documents⟩, rfl⟩
    fun ⟨⟨held, h⟩, hp⟩ honest =>
      have ⟨held', h', hp'⟩ := tended_turn law h hp honest
      ⟨⟨held', h'⟩, hp'⟩
  refine ⟨held, h.reports, h.holding.live, h.holding.distinct, ?_, h.location_iff, h.watched, ?_,
    live_dispose law h.toKept, watchCount_dispose c⟩
  · rw [h.holding.live.length_eq, List.length_append, length_own h.reports h.watched]
  · intro key
    constructor
    · exact h.keys key
    · rintro ⟨x, hx, rfl⟩
      exact (h.covered x hx).resolve_right List.not_mem_nil

/-- Three reports are watched; then everything is removed, and an event tells of it. -/
def removalRun : Controller Roster :=
  ((new ⟨"/w"⟩ .default .empty []).turn (.call (.still Snapshot.twins) .start)).turn
    (.call (.still Snapshot.bare)
      (.handleEvent (.ok ⟨.removeFile, [⟨"/w/compile_commands.json"⟩]⟩)))

/-- Once `pair` is started, every tier holds watches and both sources have an entry. -/
theorem pairStarted_watches :
    pairStarted.tiers = ⟨true, true, 2⟩ ∧ pairStarted.index.keys = ["a.c", "b.c"] :=
  calls_of_callsIn 9 [(.still pair, .start)] (pairNew [pairDocument])
    (P := fun c => c.tiers = ⟨true, true, 2⟩ ∧ c.index.keys = ["a.c", "b.c"]) (by decide +kernel)

/-- The watches are accounted for after the manifest is removed, and also once `pair` is started,
when every tier holds some: four watches are alive then. -/
theorem watches_accounted_removal :
    Roster.Sound .empty ∧
    (Reached (Honest Roster.Sound []) (new ⟨"/w"⟩ .default .empty []) removalRun ∧
      ∃ held, removalRun.reportWatches.items = held.map (·.1) ∧
        (WatchService.live removalRun.service).Perm (removalRun.own held) ∧
        (WatchService.live removalRun.service).length = removalRun.watchCount) ∧
    Reached (Honest Roster.Sound []) (pairNew [pairDocument]) pairStarted ∧
    ∃ held, held.length = 2 ∧ (∃ x ∈ held, x.2.sourceKey = "b.c") ∧
      (WatchService.live pairStarted.service).Perm (pairStarted.own held) ∧
      (WatchService.live pairStarted.service).length = 4 ∧
      (WatchService.live pairStarted.dispose.service).Perm [] := by
  have removal : Reached (Honest Roster.Sound []) (new ⟨"/w"⟩ .default .empty []) removalRun := by
    refine .turn (.turn .first trivial) ?_
    rintro route - ⟨v, hv, -⟩
    cases hv
  have started : Reached (Honest Roster.Sound []) (pairNew [pairDocument]) pairStarted :=
    .turn .first trivial
  obtain ⟨tiers, keys⟩ := pairStarted_watches
  refine ⟨Roster.sound_empty, ⟨removal, ?_⟩, started, ?_⟩
  · obtain ⟨held, items, live, -, count, -⟩ :=
      watches_accounted Roster.lawful Roster.sound_empty removal
    exact ⟨held, items, live, count.trans (Nat.zero_add _)⟩
  · obtain ⟨held, items, live, -, count, -, -, entries, disposed, -⟩ :=
      watches_accounted Roster.lawful Roster.sound_empty started
    have reports : held.length = pairStarted.tiers.reports := by
      rw [← List.length_map (·.1), ← items]
      rfl
    refine ⟨held, by rw [reports, tiers], (entries "b.c").1 (by simp [keys]), live, ?_, disposed⟩
    rw [count, watchCount, tiers]
    rfl

end StackUsage.Controller

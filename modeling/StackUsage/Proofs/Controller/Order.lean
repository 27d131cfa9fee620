import StackUsage.Proofs.Controller.Foretold
import StackUsage.Proofs.Controller.Generations

/-! The order in which the routes of an event are listed does not matter. On a still tree, with a
watch service that refuses by the path alone, handling the routes of live watches in any order comes
to the same records for every source key, the same real manifest, the same watched paths of each
tier, the same kind of failure and, for every visible source, the same decorations up to their
order. Repeated routes are allowed, and so are routes that a route before them makes old. -/

namespace StackUsage.Controller

open WatchService (Lawful Holding)

variable {σ : Type} [WatchService σ] {sound : σ → Prop}

/-! ### Watched paths -/

/-- The paths that are watched at a depth of the tiers. -/
def watchedPaths (depth : Nat) (c : Controller σ) : List Path :=
  ((WatchService.live c.service).filter (·.route.depth = depth)).map (·.path)

/-- What a watch is on, and in which tier it is. -/
def place (w : LiveWatch) : Nat × Path := (w.route.depth, w.path)

section

variable {others : List LiveWatch} {queue : List Route} {held : List (Handle × ReportUnit)}
  {c c' : Controller σ}

theorem watchedPaths_eq (depth : Nat) (c : Controller σ) :
    c.watchedPaths depth =
      (((WatchService.live c.service).map place).filter (·.1 = depth)).map (·.2) := by
  rw [watchedPaths, List.filter_map, List.map_map]
  rfl

theorem watchedPaths_perm {own own' : List LiveWatch}
    (h : (WatchService.live c.service).Perm (others ++ own))
    (h' : (WatchService.live c'.service).Perm (others ++ own'))
    (same : own.map place = own'.map place) (depth : Nat) :
    (c.watchedPaths depth).Perm (c'.watchedPaths depth) := by
  have places : ((WatchService.live c.service).map place).Perm
      ((WatchService.live c'.service).map place) := by
    refine (h.map place).trans (.trans (.of_eq ?_) (h'.map place).symm)
    rw [List.map_append, List.map_append, same]
  rw [watchedPaths_eq, watchedPaths_eq]
  exact (places.filter _).map _

/-- Where the watches are follows from the location, the real manifest and the units. -/
theorem places_own (h : Tended sound others queue held c) :
    (c.own held).map place =
      c.locationWatch.current.toList.map (fun _ => (0, c.location)) ++
        (c.target.toList.map (1, ·) ++ (held.map (·.2)).map fun unit => (2, unit.reportPath)) := by
  have target : c.targetPart.map place = c.target.toList.map (1, ·) := by
    have watched := h.watched
    unfold Slot.isSet at watched
    cases hc : c.targetWatch.current with
    | none =>
      rw [hc] at watched
      have unset : c.target = none := by simpa using watched.symm
      simp [targetPart, hc, unset]
    | some handle =>
      rw [hc] at watched
      obtain ⟨path, hp⟩ := Option.isSome_iff_exists.1 watched.symm
      simp [targetPart, hc, hp, place, Route.depth]
  rw [own, List.map_append, List.map_append, target, locationPart, reportPart, List.map_map,
    List.map_map, List.map_map]
  rfl

omit [WatchService σ] in
theorem due_own {w : LiveWatch} (h : w ∈ c.own held) :
    w.route.Due c.targetGeneration c.reportGeneration := by
  rw [own, List.mem_append, List.mem_append] at h
  rcases h with h | h | h
  · obtain ⟨handle, -, rfl⟩ := List.mem_map.1 h
    trivial
  · rw [route_of_mem_targetPart h]
    exact Nat.le_refl _
  · obtain ⟨x, -, rfl⟩ := List.mem_map.1 h
    exact Nat.le_refl _

end

/-! ### Two orders -/

/-- The two calls came to the same, as far as anybody can tell who does not look at the order. -/
structure Agree (documents : List Document) (config : Config)
    (a b : Controller σ × Option Failure) : Prop where
  index : ∀ key, a.1.index.entry? key = b.1.index.entry? key
  target : a.1.target = b.1.target
  watches : ∀ depth, (a.1.watchedPaths depth).Perm (b.1.watchedPaths depth)
  failure : a.2.map Failure.kind = b.2.map Failure.kind
  shown : ∀ doc ∈ documents, config.isSource doc.path = true →
    (a.1.shown doc.path).Perm (b.1.shown doc.path)

/-- Two passes agree if one outline has the queue of the other in another order. -/
theorem Fulfils.agree {s : Scene} {others : List LiveWatch} {slot : Slot Handle} {o : Outline}
    {queue : List Route} {held held' : List (Handle × ReportUnit)}
    {a b : Controller σ × Option Failure} (h : Fulfils sound others slot s o held a)
    (h' : Fulfils sound others slot s (o.withQueue queue) held' b) (perm : o.queue.Perm queue)
    (apart : Scene.Apart o.waiting) : Agree s.documents s.config a b := by
  obtain ⟨target, units, index⟩ := Outline.ending_perm (s := s) perm apart
  have found : a.1.target = b.1.target := by rw [h.target, h'.target, target]
  have named : held.map (·.2) = held'.map (·.2) := by rw [h.units, h'.units, units]
  refine ⟨fun key => ?_, found, fun depth => ?_, ?_, fun doc hd hs => ?_⟩
  · rw [h.index, h'.index]
    exact index.entry key
  · refine watchedPaths_perm h.holding.live h'.holding.live ?_ depth
    rw [places_own h.toTended, places_own h'.toTended, h.locationWatch, h'.locationWatch, found,
      named, location, location, h.root, h'.root, h.config, h'.config]
  · rw [h.failure, h'.failure, Outline.failing_perm perm]
  · have visible : s.Visible doc.path := ⟨doc, hd, rfl, hs⟩
    rw [h.shown _ visible, h'.shown _ visible]
    exact Outline.display_perm perm apart visible

theorem process_fulfils (law : Lawful σ sound) {s : Scene} (impartial : Impartial sound s)
    {others : List LiveWatch} {slot : Slot Handle} {held : List (Handle × ReportUnit)}
    {c : Controller σ} {routes : List Route} (h : Tended sound others c.pending held c)
    (plays : Plays s slot c) (idle : c.pending = [])
    (own : ∀ route ∈ routes, ∃ w ∈ c.own held, w.route = route)
    (apart : Scene.Apart (routes.filterMap (Route.unitOf c.reportGeneration))) :
    ∃ held', Fulfils sound others slot s ((outline (held.map (·.2)) c).withQueue routes) held'
      (c.process (.still s.tree) routes) := by
  have queue : (c.enqueue routes).pending = routes := by rw [enqueue, idle, List.nil_append]
  have same : outline (held.map (·.2)) (c.enqueue routes) =
      (outline (held.map (·.2)) c).withQueue routes := by
    have unsent : (c.enqueue routes).sent = c.sent := rfl
    rw [outline_eq _ unsent, queue]
    rfl
  have tended : Tended sound others (c.enqueue routes).pending held (c.enqueue routes) := by
    refine h.enqueue fun route hr => ?_
    obtain ⟨w, hw, rfl⟩ := own route hr
    exact accounted_own hw
  have fit : ((outline (held.map (·.2)) c).withQueue routes).Fit s := by
    refine ⟨fun route hr => ?_, fun _ => apart⟩
    obtain ⟨w, hw, rfl⟩ := own route hr
    exact due_own hw
  rw [← same] at fit ⊢
  exact drain_fulfils law impartial tended { plays with } fit 1

/-- The order of the routes does not matter. Take a controller that honest turns have led to, a
tree that stays as it is, and a watch service that on this tree refuses by the path alone. Two lists
of routes of live watches, one a permutation of the other, in which reports of different units have
different source keys, come to the same. -/
theorem routes_in_any_order (law : Lawful σ sound) {service : σ} (hs : sound service) {root : Path}
    {config : Config} {documents : List Document} {c : Controller σ} {t : Tree}
    {accepts : Path → Bool} {routes routes' : List Route}
    (run : Reached (Honest sound (WatchService.live service))
      (new root config service documents) c)
    (refusals : ∀ (path : Path) (route : Route) (s : σ), sound s →
      (WatchService.watch t path route s).outcome.isOk = accepts path)
    (owned : ∀ route ∈ routes, ∃ w, Owns (WatchService.live service) c w ∧ w.route = route)
    (apart : Scene.Apart (routes.filterMap Route.unit?)) (perm : routes.Perm routes') :
    Agree c.documents c.config (c.process (.still t) routes) (c.process (.still t) routes') := by
  obtain ⟨held, tended⟩ := (orderly_reached law hs run).tended
  have idle := run.idle
  let s : Scene := ⟨t, c.root, c.config, c.documents, accepts⟩
  have impartial : Impartial sound s := refusals
  have plays : Plays s c.locationWatch c := ⟨rfl, rfl, rfl, rfl⟩
  have own : ∀ route ∈ routes, ∃ w ∈ c.own held, w.route = route := by
    intro route hr
    obtain ⟨w, hw, he⟩ := owned route hr
    exact ⟨w, (owns_iff tended.holding).1 hw, he⟩
  have distinct : Scene.Apart (routes.filterMap (Route.unitOf c.reportGeneration)) := by
    refine apart.mono fun unit hu => ?_
    obtain ⟨route, hr, he⟩ := List.mem_filterMap.1 hu
    exact List.mem_filterMap.2 ⟨route, hr, Route.unit?_of_unitOf he⟩
  have distinct' : Scene.Apart (routes'.filterMap (Route.unitOf c.reportGeneration)) :=
    distinct.mono fun u hu => (perm.filterMap _).mem_iff.2 hu
  obtain ⟨left, h⟩ := process_fulfils law impartial tended plays idle.pending own distinct
  obtain ⟨left', h'⟩ := process_fulfils law impartial tended plays idle.pending
    (fun route hr => own route (perm.mem_iff.2 hr)) distinct'
  exact h.agree h' perm distinct

/-- Every watch of `pair` fires, one of them twice, the lower tiers first. -/
def pairRoutes : List Route :=
  [.report 1 (pairUnit "a"), .target 1, .location, .report 1 (pairUnit "b"),
    .report 1 (pairUnit "a")]

theorem pairRoutes_live : ∀ route ∈ pairRoutes,
    ∃ w ∈ WatchService.live pairStarted.service, w.route = route :=
  calls_of_callsIn 9 [(.still pair, .start)] (pairNew [pairDocument])
    (P := fun c => ∀ route ∈ pairRoutes, ∃ w ∈ WatchService.live c.service, w.route = route)
    (by decide +kernel)

/-- A report has changed, and the routes are handled from first to last and from last to first. -/
theorem routes_in_any_order_pair :
    Reached (Honest Roster.Willing []) (pairNew [pairDocument]) pairStarted ∧
    (∀ route ∈ pairRoutes, ∃ w, Owns [] pairStarted w ∧ w.route = route) ∧
    Scene.Apart (pairRoutes.filterMap Route.unit?) ∧
    Agree pairStarted.documents pairStarted.config
      (pairStarted.process (.still pairAfter) pairRoutes)
      (pairStarted.process (.still pairAfter) pairRoutes.reverse) := by
  have run : Reached (Honest Roster.Willing []) (pairNew [pairDocument]) pairStarted :=
    .turn .first trivial
  have owned : ∀ route ∈ pairRoutes, ∃ w, Owns [] pairStarted w ∧ w.route = route := by
    intro route hr
    obtain ⟨w, hw, he⟩ := pairRoutes_live route hr
    exact ⟨w, ⟨hw, List.not_mem_nil⟩, he⟩
  have apart : Scene.Apart (pairRoutes.filterMap Route.unit?) := by
    unfold Scene.Apart
    decide
  have refusals : ∀ (path : Path) (route : Route) (r : Roster), Roster.Willing r →
      (WatchService.watch pairAfter path route r).outcome.isOk = true := by
    intro path route r hr
    obtain ⟨id, ho⟩ := Roster.accepts_willing path pairAfter route r hr
    rw [ho]
    rfl
  exact ⟨run, owned, apart, routes_in_any_order Roster.lawful_willing
    ⟨Roster.sound_empty, fun _ _ => rfl⟩ run refusals owned apart (List.reverse_perm _).symm⟩

end StackUsage.Controller

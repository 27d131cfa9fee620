import StackUsage.Proofs.Controller.Display
import StackUsage.Proofs.Controller.Still
import StackUsage.Watch.Registry

/-! A resynchronization forgets all history. Whatever a controller holds and whatever waits in its
queue, once it starts over from the manifest's location on a still tree, it ends with the index of a
snapshot of that tree. It goes through three stages: the location is still to be handled, and what
follows it in the queue was attached later; then the real manifest, which is the last in the queue,
so that all that is older is gone when its turn comes; then the reports, each of which adds its
records as the snapshot does. -/

namespace StackUsage.Controller

open Annotation (lastFor)
open WatchService (Lawful Holding Accepts)

variable {σ : Type} [WatchService σ] {sound : σ → Prop}

/-! ### Stages -/

/-- How far a resynchronization has come, by what is in the queue. -/
inductive Stage (sound : σ → Prop) (t : Tree) (manifest : Resolution) (units : List ReportUnit)
    (c : Controller σ) : List Route → Prop
  | located (earlier : List Route) {later : List Route} :
    (∀ route ∈ later, Before (c.targetGeneration + 1) (c.reportGeneration + 1) route) →
      Stage sound t manifest units c (earlier ++ .location :: later)
  | found {older : List Route} :
    (∀ route ∈ older, Before c.targetGeneration (c.reportGeneration + 1) route) →
    c.target = manifest.path? →
      Stage sound t manifest units c (older ++ [.target c.targetGeneration])
  | followed {older : List Route} {read rest : List ReportUnit} :
    (∀ route ∈ older, Before c.targetGeneration c.reportGeneration route) →
    c.target = manifest.path? → read ++ rest = units →
    c.index = Snapshot.indexOf t c.config read → c.renderAll = true → Follows sound units c →
      Stage sound t manifest units c (older ++ rest.map (.report c.reportGeneration))

section

variable {t : Tree} {manifest : Resolution} {units : List ReportUnit} {c : Controller σ}

/-- On a still tree nothing fails, and what is attached is of the current generations. -/
theorem dispatch_still (found : Found sound t c.root c.config manifest units)
    (hs : sound c.service) (route : Route) :
    ∃ c' attached, c.dispatch (.still t) route = ⟨c', attached, none⟩ ∧ Onward sound c c' ∧
      ∀ r ∈ attached, Before (c'.targetGeneration + 1) (c'.reportGeneration + 1) r := by
  have ignored : ∀ {route}, Ignored c route → ∃ c' attached,
      c.dispatch (.still t) route = ⟨c', attached, none⟩ ∧ Onward sound c c' ∧
        ∀ r ∈ attached, Before (c'.targetGeneration + 1) (c'.reportGeneration + 1) r :=
    fun h => ⟨_, [], dispatch_ignored h _, onward_heard hs _, by simp⟩
  cases route with
  | location =>
    cases hm : manifest.path? with
    | none =>
      obtain ⟨c', he, onward, -⟩ := dispatch_location_missing found hs hm
      exact ⟨c', [], he, onward, by simp⟩
    | some target =>
      obtain ⟨c', he, onward, -⟩ := dispatch_location found hs hm
      exact ⟨c', _, he, onward, by simp [Before]⟩
  | target generation =>
    by_cases hg : generation = c.targetGeneration
    · subst hg
      obtain ⟨c₁, c', he, onward, -, -, -, -, following⟩ := dispatch_target found hs
      refine ⟨c', _, he, onward.trans following.onward, ?_⟩
      intro r hr
      obtain ⟨unit, -, rfl⟩ := List.mem_map.1 hr
      exact Nat.lt_succ_self _
    · exact ignored hg
  | report generation unit =>
    by_cases hg : generation = c.reportGeneration
    · subst hg
      obtain ⟨c', he, onward, -⟩ := dispatch_report unit (.still t) hs
      exact ⟨c', [], he, onward, by simp⟩
    · exact ignored hg

/-- Handling the route fails nothing and leads to a stage with the rest of the queue and with what
was attached. -/
def Advances (sound : σ → Prop) (t : Tree) (manifest : Resolution) (units : List ReportUnit)
    (c : Controller σ) (route : Route) (rest : List Route) : Prop :=
  ∃ c' attached, c.dispatch (.still t) route = ⟨c', attached, none⟩ ∧ Onward sound c c' ∧
    Stage sound t manifest units c' (rest ++ attached)

theorem advances_earlier (found : Found sound t c.root c.config manifest units)
    (hs : sound c.service) (route : Route) (earlier : List Route) {later : List Route}
    (hl : ∀ r ∈ later, Before (c.targetGeneration + 1) (c.reportGeneration + 1) r) :
    Advances sound t manifest units c route (earlier ++ .location :: later) := by
  obtain ⟨c', attached, he, onward, new⟩ := dispatch_still found hs route
  refine ⟨c', attached, he, onward, ?_⟩
  rw [List.append_assoc, List.cons_append]
  refine .located earlier fun r hr => ?_
  rcases List.mem_append.1 hr with hr | hr
  · exact (hl r hr).mono (Nat.succ_le_succ onward.targetGeneration)
      (Nat.succ_le_succ onward.reportGeneration)
  · exact new r hr

theorem advances_location (found : Found sound t c.root c.config manifest units)
    (hs : sound c.service) {later : List Route}
    (hl : ∀ r ∈ later, Before (c.targetGeneration + 1) (c.reportGeneration + 1) r) :
    Advances sound t manifest units c .location later := by
  cases hm : manifest.path? with
  | none =>
    obtain ⟨c', he, onward, ht, hr, hp, hi, hall, items⟩ := dispatch_location_missing found hs hm
    have none : units = [] := by
      have named := found.named
      rw [Snapshot.unitsOf, hm] at named
      exact named.symm
    subst none
    refine ⟨c', [], he, onward, ?_⟩
    rw [← ht, ← hr] at hl
    exact .followed hl (hp.trans hm.symm) (List.append_nil []) hi hall
      ⟨[], _, items, rfl, .nil onward.sound⟩
  | some target =>
    obtain ⟨c', he, onward, ht, hr, hp⟩ := dispatch_location found hs hm
    refine ⟨c', _, he, onward, .found ?_ (hp.trans hm.symm)⟩
    rw [ht, hr]
    exact hl

/-- An ignored route changes nothing that a stage depends on. -/
theorem advances_ignored {route : Route} {rest : List Route} (hs : sound c.service)
    (hi : Ignored c route) (h : Stage sound t manifest units (c.note [.dispatched route]) rest) :
    Advances sound t manifest units c route rest := by
  refine ⟨_, [], dispatch_ignored hi _, onward_heard hs _, ?_⟩
  rw [List.append_nil]
  exact h

/-- Before the manifest's turn only a report may still be taken in: its generation ends with that
turn. -/
theorem advances_older (hs : sound c.service) {route : Route} {older : List Route}
    (hb : ∀ r ∈ route :: older, Before c.targetGeneration (c.reportGeneration + 1) r)
    (hp : c.target = manifest.path?) :
    Advances sound t manifest units c route (older ++ [.target c.targetGeneration]) := by
  have first := hb route (by simp)
  have others : ∀ r ∈ older, Before c.targetGeneration (c.reportGeneration + 1) r :=
    fun r hr => hb r (List.mem_cons_of_mem _ hr)
  by_cases current : ∃ unit, route = .report c.reportGeneration unit
  · obtain ⟨unit, rfl⟩ := current
    obtain ⟨c', he, onward, -, ht, hr, hp', -⟩ := dispatch_report unit (.still t) hs
    refine ⟨c', [], he, onward, ?_⟩
    rw [List.append_nil, ← ht]
    refine .found ?_ (hp'.trans hp)
    rwa [ht, hr]
  · refine advances_ignored hs ?_ (.found others hp)
    cases route with
    | location => exact first
    | target generation => exact Nat.ne_of_lt first
    | report generation unit =>
      intro hg
      exact current ⟨unit, by rw [hg]⟩

theorem advances_target (found : Found sound t c.root c.config manifest units)
    (hs : sound c.service) (hp : c.target = manifest.path?) :
    Advances sound t manifest units c (.target c.targetGeneration) [] := by
  obtain ⟨c₁, c', he, onward, -, hp₁, hi, hall, following⟩ := dispatch_target found hs
  have none : ∀ r ∈ [], Before c'.targetGeneration c'.reportGeneration r := by simp
  refine ⟨c', _, he, onward.trans following.onward, ?_⟩
  exact .followed none (following.target.trans (hp₁.trans hp)) (List.nil_append units)
    (following.index.trans hi) (following.renderAll.trans hall) following.follows

theorem advances_report (hs : sound c.service) {read rest : List ReportUnit} {unit : ReportUnit}
    (hp : c.target = manifest.path?) (split : read ++ unit :: rest = units)
    (hi : c.index = Snapshot.indexOf t c.config read) (hall : c.renderAll = true)
    (follows : Follows sound units c) :
    Advances sound t manifest units c (.report c.reportGeneration unit)
      (rest.map (.report c.reportGeneration)) := by
  obtain ⟨c', he, onward, hi', ht, hr, hp', hall', items, service⟩ :=
    dispatch_report unit (.still t) hs
  have none : ∀ r ∈ [], Before c'.targetGeneration c'.reportGeneration r := by simp
  have index : c'.index = Snapshot.indexOf t c'.config (read ++ [unit]) := by
    rw [Snapshot.indexOf_append, hi', hi, onward.config]
  refine ⟨c', [], he, onward, ?_⟩
  rw [List.append_nil, ← hr]
  refine .followed none (hp'.trans hp) ?_ index (hall'.trans hall) ?_
  · rw [List.append_assoc]
    exact split
  · rw [Follows, items, service, hr]
    exact follows

/-- Handling the head of the queue is a step towards the end. -/
theorem Stage.advances {route : Route} {rest : List Route}
    (found : Found sound t c.root c.config manifest units) (hs : sound c.service)
    (h : Stage sound t manifest units c (route :: rest)) :
    Advances sound t manifest units c route rest := by
  generalize hq : route :: rest = queue at h
  cases h with
  | located earlier later =>
    cases earlier with
    | nil =>
      obtain ⟨rfl, rfl⟩ := List.cons.inj hq
      exact advances_location found hs later
    | cons first earlier =>
      obtain ⟨rfl, rfl⟩ := List.cons.inj hq
      exact advances_earlier found hs route earlier later
  | @found older before hp =>
    cases older with
    | nil =>
      obtain ⟨rfl, rfl⟩ := List.cons.inj hq
      exact advances_target found hs hp
    | cons first older =>
      obtain ⟨rfl, rfl⟩ := List.cons.inj hq
      exact advances_older hs before hp
  | @followed older read units' before hp split hi hall follows =>
    cases older with
    | nil =>
      cases units' with
      | nil => cases hq
      | cons unit units' =>
        obtain ⟨rfl, rfl⟩ := List.cons.inj hq
        exact advances_report hs hp split hi hall follows
    | cons first older =>
      obtain ⟨rfl, rfl⟩ := List.cons.inj hq
      have old := (before route (by simp)).ignored
      exact advances_ignored hs old
        (.followed (fun r hr => before r (List.mem_cons_of_mem _ hr)) hp split hi hall follows)

theorem Stage.withPending {queue : List Route} (h : Stage sound t manifest units c queue)
    (routes : List Route) : Stage sound t manifest units (c.withPending routes) queue := by
  cases h with
  | located earlier later => exact .located earlier later
  | found older hp => exact .found older hp
  | followed older hp split hi hall follows => exact .followed older hp split hi hall follows

/-- With an empty queue everything has been read. -/
theorem Stage.nil (h : Stage sound t manifest units c []) :
    c.target = manifest.path? ∧ c.index = Snapshot.indexOf t c.config units ∧
      c.renderAll = true ∧ Follows sound units c := by
  generalize hq : [] = queue at h
  cases h with
  | located earlier later => simp at hq
  | found older hp => simp at hq
  | @followed older read rest before hp split hi hall follows =>
    obtain ⟨-, hr⟩ := List.append_eq_nil_iff.1 hq.symm
    rw [List.map_eq_nil_iff.1 hr, List.append_nil] at split
    subst split
    exact ⟨hp, hi, hall, follows⟩

/-! ### The end of the queue -/

/-- What a resynchronization of `c` comes to. -/
structure Settled (sound : σ → Prop) (t : Tree) (manifest : Resolution) (units : List ReportUnit)
    (c : Controller σ) (result : Controller σ × Option Failure) : Prop where
  failure : result.2 = none
  index : result.1.index = Snapshot.indexOf t c.config units
  target : result.1.target = manifest.path?
  follows : Follows sound units result.1
  sent : ∃ earlier,
    result.1.sent =
      earlier ++ Annotation.publish (.still t) c.config result.1.index .all c.documents

theorem stage_serve (found : Found sound t c.root c.config manifest units) (hs : sound c.service)
    {route : Route} {rest : List Route} (h : Stage sound t manifest units c (route :: rest)) :
    (c.serve (.still t) route rest).2 = none ∧ Onward sound c (c.serve (.still t) route rest).1 ∧
      Stage sound t manifest units (c.serve (.still t) route rest).1
        (c.serve (.still t) route rest).1.pending := by
  obtain ⟨c', attached, he, onward, stage⟩ :=
    Stage.advances (c := c.withPending rest) found hs (h.withPending rest)
  have hserve : c.serve (.still t) route rest = (c'.withPending (rest ++ attached), none) := by
    rw [serve, he]
  rw [hserve]
  exact ⟨rfl, { onward with }, stage.withPending _⟩

/-- Whatever is in the queue before the location. -/
theorem settled_drain {c₁ : Controller σ} (found : Found sound t c.root c.config manifest units)
    (onward : Onward sound c c₁) (earlier : List Route) (hp : c₁.pending = earlier ++ [.location])
    (n : Nat) : Settled sound t manifest units c (c₁.drain (.still t) n none) := by
  have stage : Stage sound t manifest units c₁ c₁.pending := by
    rw [hp]
    exact .located earlier (by simp)
  obtain ⟨m, c', hq, ⟨hf, onward, stage⟩, he⟩ := drain_rule (w := .still t)
    (P := fun _ first c' => first = none ∧ Onward sound c c' ∧
      Stage sound t manifest units c' c'.pending)
    (fun hq ⟨hf, onward, stage⟩ => by
      rw [hq] at stage
      have found := found
      rw [← onward.root, ← onward.config] at found
      obtain ⟨hf', onward', stage'⟩ := stage_serve found onward.sound stage
      exact ⟨by rw [hf]; exact hf', onward.trans onward', stage'⟩)
    n none ⟨rfl, onward, stage⟩
  rw [hq] at stage
  obtain ⟨target, index, hall, follows⟩ := stage.nil
  have result : (c₁.drain (.still t) n none).1 =
      { c' with renderAll := false }.publish (.still t) .all := he.trans (if_pos hall)
  refine ⟨hf, ?_, ?_, ?_, ?_⟩
  · rw [result, ← onward.config]
    exact index
  · rw [result]
    exact target
  · rw [result]
    exact follows
  · rw [result, ← onward.config, ← onward.documents]
    exact ⟨c'.sent, sent_announce ..⟩

end

/-! ### Calls that start over -/

/-- The calls that start over from the manifest's location on a still tree, and their results: a
start, the location's own route, and an event after events were lost, whatever that event is. -/
inductive Resync (t : Tree) (c : Controller σ) : Controller σ × Option Failure → Prop
  | start : Resync t c (c.start (.still t))
  | location : Resync t c (c.handle (.still t) .location)
  | lost (event : Except String FileEvent) :
    (WatchService.takeOverflow (c.receive t event).service).1 = true →
      Resync t c (c.handleEvent (.still t) event)

/-- The paths that a workspace has watched on a tree. -/
inductive Wanted (t : Tree) (root : Path) (config : Config) : Path → Prop
  | location : Wanted t root config (Snapshot.location root config)
  | target {manifest : Resolution} {target : Path} :
    Resolution.resolve t (Snapshot.location root config) = .ok manifest →
    manifest.path? = some target → Wanted t root config target
  | report {manifest : Resolution} {units : List ReportUnit} {unit : ReportUnit} :
    Resolution.resolve t (Snapshot.location root config) = .ok manifest →
    Snapshot.unitsOf (.still t) config manifest = .ok units → unit ∈ units →
      Wanted t root config unit.reportPath

theorem found_of_wanted {t : Tree} {root : Path} {config : Config} {manifest : Resolution}
    (law : Lawful σ sound) (accepts : ∀ path, Wanted t root config path → Accepts σ sound path)
    (hr : Resolution.resolve t (Snapshot.location root config) = .ok manifest) :
    Found sound t root config manifest
      ((Snapshot.unitsOf (.still t) config manifest).toOption.getD []) where
  law := law
  resolved := hr
  named := rfl
  target target hm := accepts target (.target hr hm)
  reports unit hu := by
    cases hn : Snapshot.unitsOf (.still t) config manifest with
    | error failure =>
      rw [hn] at hu
      cases hu
    | ok units =>
      rw [hn] at hu
      exact accepts unit.reportPath (.report hr hn hu)

theorem onward_receive (law : Lawful σ sound) {c : Controller σ} (hs : sound c.service) (t : Tree)
    (event : Except String FileEvent) : Onward sound c (c.receive t event) := by
  cases event with
  | ok event =>
    exact ⟨rfl, rfl, rfl, law.sound_route t event hs, Nat.le_refl _, Nat.le_refl _⟩
  | error text => exact ⟨rfl, rfl, rfl, hs, Nat.le_refl _, Nat.le_refl _⟩

theorem settled_resync {t : Tree} {manifest : Resolution} {units : List ReportUnit}
    {c : Controller σ} {result : Controller σ × Option Failure} (hs : sound c.service)
    (found : Found sound t c.root c.config manifest units)
    (accepts : Accepts σ sound c.location) (resync : Resync t c result) :
    Settled sound t manifest units c result := by
  cases resync with
  | start =>
    obtain ⟨id, s, notices, he, hs'⟩ :=
      attach_accepted found.law accepts (World.still t 0 0) .location hs
    unfold start
    rw [he]
    refine settled_drain found ?_ c.pending ?_ 1
    · rw [setLocationWatch, disposeAll_eq]
      exact ⟨rfl, rfl, rfl, sound_releaseAll found.law _ hs', Nat.le_refl _, Nat.le_refl _⟩
    · rw [setLocationWatch, disposeAll_eq]
      rfl
  | location =>
    have onward : Onward sound c (c.enqueue [.location]) :=
      ⟨rfl, rfl, rfl, hs, Nat.le_refl _, Nat.le_refl _⟩
    exact settled_drain found onward c.pending rfl 1
  | lost event overflow =>
    have received := onward_receive found.law hs t event
    have caught : Onward sound c (c.receive t event).catchUp := by
      rw [catchUp_eq, if_pos overflow]
      exact { received with sound := found.law.sound_takeOverflow received.sound }
    refine settled_drain found caught (c.receive t event).pending ?_ 1
    rw [catchUp_eq, if_pos overflow]
    rfl

/-- A resynchronization computes the snapshot. In whatever state a controller is and whatever
waits in its queue: if the tree stays as it is during the call and the service refuses no watch that
is wanted, a call that starts over does not fail. It leaves the index of the snapshot, a live watch
for each of its units, in their order, and the real manifest of the snapshot, and each visible
source was last sent what publishing the snapshot's index sends it. If the manifest cannot be read,
nothing is indexed and no report is watched. -/
theorem resync_computes_snapshot (law : Lawful σ sound) {t : Tree} {c : Controller σ}
    {result : Controller σ × Option Failure} (hs : sound c.service)
    (accepts : ∀ path, Wanted t c.root c.config path → Accepts σ sound path)
    (resync : Resync t c result) :
    (∀ s, Snapshot.load t c.config c.root = .ok s →
      result.2 = none ∧ result.1.index = s.index ∧
      (∃ held : List (Handle × ReportUnit), result.1.reportWatches.items = held.map (·.1) ∧
        held.map (·.2) = s.units ∧ (held.map (·.1.id)).Nodup ∧
        ∀ x ∈ held, ⟨x.1.id, x.2.reportPath, .report result.1.reportGeneration x.2⟩ ∈
          WatchService.live result.1.service) ∧
      result.1.target = s.manifest.path? ∧ (result.1.target = none ↔ s.manifest = .missing) ∧
      let drawn := Annotation.publish (.still t) c.config s.index .all c.documents
      ∀ doc ∈ c.documents, c.config.isSource doc.path = true → ∃ decorations,
        lastFor doc.path drawn = some decorations ∧
          lastFor doc.path result.1.sent = some decorations) ∧
    ∀ path reason, Snapshot.load t c.config c.root = .error (.manifest path reason) →
      result.2 = none ∧ result.1.index = .empty ∧ result.1.reportWatches.items = [] := by
  have location : Accepts σ sound c.location := accepts c.location .location
  refine ⟨fun s load => ?_, fun path reason load => ?_⟩
  · obtain ⟨hr, hu, hi⟩ := Snapshot.load_eq_ok load
    have found := found_of_wanted law accepts hr
    rw [hu] at found
    have settled := settled_resync hs found location resync
    have index : result.1.index = s.index := settled.index.trans hi.symm
    refine ⟨settled.failure, index, ?_, settled.target, ?_, ?_⟩
    · obtain ⟨held, others, items, names, holding⟩ := settled.follows
      refine ⟨held, items, names, ?_, fun x hx => ?_⟩
      · have distinct := holding.distinct
        rw [reportPart, List.map_map] at distinct
        exact distinct
      · exact holding.live.mem_iff.2 (List.mem_append_right _ (List.mem_map_of_mem hx))
    · rw [settled.target]
      exact Snapshot.path?_eq_none_iff
    · intro drawn doc hd hsource
      obtain ⟨earlier, sent⟩ := settled.sent
      have placed : Annotation.Placed t.realPath c.documents (.still t) := fun _ _ _ => rfl
      obtain ⟨e, -, -, he⟩ := Annotation.exists_lastFor_view t.realPath s.index hd hsource
      rw [← Annotation.publish_eq_view placed] at he
      refine ⟨_, he, ?_⟩
      rw [sent, index, Annotation.lastFor_append, he]
      rfl
  · obtain ⟨manifest, hr, hu⟩ := Snapshot.resolve_of_unreadable load
    have found := found_of_wanted law accepts hr
    rw [hu] at found
    have settled := settled_resync hs found location resync
    obtain ⟨held, others, items, names, holding⟩ := settled.follows
    refine ⟨settled.failure, settled.index, ?_⟩
    rw [items, List.map_eq_nil_iff.1 names, List.map_nil]

/-- All paths that `twins` has watched have a directory and a name. -/
theorem accepts_twins {path : Path} (h : Wanted Snapshot.twins ⟨"/w"⟩ .default path) :
    Accepts Registry Registry.Sound path := by
  have parent : Path.parent ⟨"/w/compile_commands.json"⟩ = some ⟨"/w"⟩ := by decide +kernel
  have name : Path.fileName ⟨"/w/compile_commands.json"⟩ = some "compile_commands.json" := by
    decide +kernel
  have manifest : Accepts Registry Registry.Sound ⟨"/w/compile_commands.json"⟩ :=
    Registry.accepts parent name
  cases h with
  | location =>
    have location : Snapshot.location ⟨"/w"⟩ .default = ⟨"/w/compile_commands.json"⟩ := by
      decide +kernel
    rwa [location]
  | target hr hm =>
    cases Snapshot.resolve_twins.symm.trans hr
    cases hm
    exact manifest
  | @report _ units unit hr hu hm =>
    cases Snapshot.resolve_twins.symm.trans hr
    cases Snapshot.unitsOf_twins.symm.trans hu
    have placed : ∀ unit ∈ [Snapshot.twinUnit "a" "m", Snapshot.twinUnit "b" "m",
      Snapshot.twinUnit "b" "n"],
        unit.reportPath.parent.isSome = true ∧ unit.reportPath.fileName.isSome = true := by
      decide +kernel
    obtain ⟨hd, hf⟩ := placed unit hm
    obtain ⟨directory, hd⟩ := Option.isSome_iff_exists.1 hd
    obtain ⟨fileName, hf⟩ := Option.isSome_iff_exists.1 hf
    exact Registry.accepts hd hf

/-- A controller with routes in its queue that were never issued. -/
def cluttered (service : σ) : Controller σ :=
  (new ⟨"/w"⟩ .default service [twinDocument]).withPending
    [.target 7, .location, .report 0 (Snapshot.twinUnit "a" "m")]

/-- The registry that watches directories starts over from the location; a registry or a roster that
lost events does so by itself. -/
theorem resync_computes_snapshot_twins :
    Registry.Sound (.empty .willing) ∧
    (∀ path, Wanted Snapshot.twins ⟨"/w"⟩ .default path → Accepts Registry Registry.Sound path) ∧
    Roster.Willing { Roster.empty with overflowed := true } ∧
    (∀ path, Accepts Roster Roster.Willing path) ∧
    ∃ s, Snapshot.load Snapshot.twins .default ⟨"/w"⟩ = .ok s ∧
      s.units = [Snapshot.twinUnit "a" "m", Snapshot.twinUnit "b" "m",
        Snapshot.twinUnit "b" "n"] ∧
      ((cluttered (Registry.empty .willing)).handle (.still Snapshot.twins) .location).1.index =
        s.index ∧
      ((cluttered ((Registry.empty .willing).deliver .full)).handleEvent (.still Snapshot.twins)
        (.error "lost")).1.index = s.index ∧
      ((cluttered { Roster.empty with overflowed := true }).handleEvent (.still Snapshot.twins)
        (.error "lost")).1.index = s.index := by
  have registry : Registry.Sound (.empty .willing) := Registry.sound_empty .willing
  have roster : Roster.Willing { Roster.empty with overflowed := true } :=
    ⟨Roster.sound_empty, fun _ _ => rfl⟩
  obtain ⟨s, load, units⟩ := Snapshot.load_twins
  obtain ⟨-, located, -⟩ := (resync_computes_snapshot (c := cluttered (Registry.empty .willing))
    Registry.lawful registry (fun _ h => accepts_twins h) .location).1 s load
  obtain ⟨-, remembered, -⟩ := (resync_computes_snapshot
    (c := cluttered ((Registry.empty .willing).deliver .full)) Registry.lawful registry
    (fun _ h => accepts_twins h) (.lost (.error "lost") rfl)).1 s load
  obtain ⟨-, caughtUp, -⟩ := (resync_computes_snapshot Roster.lawful_willing
    (c := cluttered { Roster.empty with overflowed := true }) roster
    (fun path _ => Roster.accepts_willing path) (.lost (.error "lost") rfl)).1 s load
  exact ⟨registry, fun _ h => accepts_twins h, roster, Roster.accepts_willing, s, load, units,
    located, remembered, caughtUp⟩

end StackUsage.Controller

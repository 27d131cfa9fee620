import Mathlib.Data.List.Dedup
import Mathlib.Logic.Relation
import StackUsage.Proofs.Watch.References
import StackUsage.Watch.Handle

/-! A registry from its start on, with the handles that were given out for it. Watches are asked
for, handles are disposed of and dropped again and again and in any order, and events are delivered
and routed, each time on another tree if need be. The registry keeps its registrations in no
particular order, so a round of arming takes them in any order. Which requests the system refuses is
fixed once for all requests to come, which is no restriction, since the law of refusal is
arbitrary. -/

namespace StackUsage

namespace Registry

/-! ### Rounds in any order -/

/-- Arms the registrations with these numbers anew, one after another. -/
def rearmIn (t : Tree) (order : List Nat) (r : Registry) : Round :=
  order.foldl (Round.next t) ⟨r, [], []⟩

/-- Routes an event, arming the registrations in this order if they may have to move. -/
def routeIn (t : Tree) (event : FileEvent) (order : List Nat) (r : Registry) : Routing Registry :=
  if !event.kind.isRelevant then ⟨[], [], r⟩
  else
    if r.mayMove event then
      let round := r.rearmIn t order
      ⟨event.paths.flatMap r.hits ++ round.fired, round.warnings, round.registry⟩
    else ⟨event.paths.flatMap r.hits, [], r⟩

/-- The registry's own order is one of them. -/
theorem route_eq_routeIn (t : Tree) (event : FileEvent) (r : Registry) :
    r.route t event = r.routeIn t event (r.registrations.map (·.id)) := rfl

/-- What every arming keeps, a round keeps. -/
theorem rearmIn_induct {P : Registry → Prop} (t : Tree) (step : ∀ r id, P r → P (r.arm t id).1)
    (order : List Nat) {r : Registry} (h : P r) : P (r.rearmIn t order).registry := by
  have round : ∀ (order : List Nat) (round : Round), P round.registry →
      P (order.foldl (Round.next t) round).registry := by
    intro order
    induction order with
    | nil => exact fun _ h => h
    | cons id rest ih => exact fun round h => ih _ (step round.registry id h)
  exact round order ⟨r, [], []⟩ h

theorem sameRoll_rearmIn (t : Tree) (order : List Nat) (r : Registry) :
    SameRoll r (r.rearmIn t order).registry :=
  rearmIn_induct t (fun s id hs => hs.trans (sameRoll_arm t s id)) order (.refl r)

theorem sameRoll_routeIn (t : Tree) (event : FileEvent) (order : List Nat) (r : Registry) :
    SameRoll r (r.routeIn t event order).service := by
  unfold routeIn
  split
  · exact .refl r
  · split
    · exact sameRoll_rearmIn t order r
    · exact .refl r

theorem Exact.rearmIn {r : Registry} (h : Exact r) (t : Tree) (order : List Nat) :
    Exact (r.rearmIn t order).registry :=
  rearmIn_induct t (fun _ id hs => hs.arm t id) order h

theorem Exact.routeIn {r : Registry} (h : Exact r) (t : Tree) (event : FileEvent)
    (order : List Nat) : Exact (r.routeIn t event order).service := by
  unfold Registry.routeIn
  split
  · exact h
  · split
    · exact h.rearmIn t order
    · exact h

/-! ### Exact references seen from outside -/

theorem Exact.referencesTo {r : Registry} (h : Exact r) (key : Path) :
    r.referencesTo key =
      r.registrations.countP fun reg => reg.armed.any fun a => a.key.same key := by
  rw [h.counts.referencesTo, countOf, armedKeys, List.countP_filterMap]
  refine List.countP_congr fun reg _ => ?_
  cases reg.armed <;> simp

theorem Exact.referencesTo_pos {r : Registry} (h : Exact r) {reg : Registration}
    (hr : reg ∈ r.registrations) {a : Armed} (ha : reg.armed = some a) :
    0 < r.referencesTo a.key := by
  rw [h.referencesTo, List.countP_pos_iff]
  exact ⟨reg, hr, by simp [ha, Path.same]⟩

/-- The directories with an entry are those at which a registration is armed. -/
theorem Exact.watchedDirectories_eq {r : Registry} (h : Exact r) :
    r.watchedDirectories = ((r.registrations.filterMap fun reg =>
      reg.armed.map fun a => a.key.components).dedup).length := by
  have keys : (r.registrations.filterMap fun reg => reg.armed.map fun a => a.key.components) =
      (armedKeys r.registrations).map Path.components := by
    simp [armedKeys, List.map_filterMap, Function.comp_def]
  have same : (r.entries.map Path.components).Perm
      (((armedKeys r.registrations).map Path.components).dedup) := by
    refine (List.perm_ext_iff_of_nodup h.counts.distinct (List.nodup_dedup _)).2 fun cs => ?_
    simp only [List.mem_dedup, List.mem_map]
    constructor
    · rintro ⟨p, hp, rfl⟩
      obtain ⟨ref, hr, rfl⟩ := List.mem_map.1 hp
      obtain ⟨count, pos⟩ := h.counts.counted ref hr
      rw [count] at pos
      obtain ⟨q, hq, he⟩ := List.countP_pos_iff.1 pos
      exact ⟨q, hq, Path.same_iff.1 he⟩
    · rintro ⟨q, hq, rfl⟩
      exact isWatched_iff.1 (h.counts.watched q hq)
  rw [keys, ← same.length_eq]
  simp [watchedDirectories, entries]

theorem Exact.watchedDirectories_le {r : Registry} (h : Exact r) :
    r.watchedDirectories ≤ r.registrations.length := by
  rw [h.watchedDirectories_eq]
  exact Nat.le_trans (List.dedup_sublist _).length_le (List.length_filterMap_le _ _)

/-- Inside a call, a registration is due to give up its reference: the registry at that time, and
the number of the registration. A new registration has none yet, but is armed like the others. -/
inductive Due (r : Registry) : Registry → Nat → Prop
  | watch (target directory : Path) (fileName : String) (route : Route) :
    Due r (r.enroll target directory fileName route) r.nextId
  | release (id : Nat) : Due r r id
  | route (t : Tree) (done : List Nat) (id : Nat) (rest : List Nat) :
    (done ++ id :: rest).Perm (r.registrations.map (·.id)) → Due r (r.rearmIn t done).registry id

theorem Exact.due {r r' : Registry} {id : Nat} (h : Exact r) (hd : Due r r' id) : Exact r' := by
  cases hd with
  | watch target directory fileName route => exact h.enroll target directory fileName route
  | release => exact h
  | route t done _ rest _ => exact h.rearmIn t done

end Registry

/-! ### Tenures -/

/-- A registry and the handles given out for it. A handle stays after it has been disposed of,
until it is dropped. -/
structure Tenure where
  registry : Registry
  handles : List Handle

namespace Tenure

/-- Nothing is registered yet. -/
def start (refuses : Nat → Path → Option String) : Tenure := ⟨.empty ⟨refuses, 0, []⟩, []⟩

/-- Asks for a watch; a grant comes with a new handle. -/
def watch (t : Tree) (target : Path) (route : Route) (s : Tenure) : Tenure :=
  let attempt := s.registry.watch t target route
  match attempt.outcome with
  | .ok id => ⟨attempt.service, s.handles ++ [.new id]⟩
  | .error _ => ⟨attempt.service, s.handles⟩

/-- The releases that disposing of the handles with this number causes. -/
def gone (id : Nat) (handles : List Handle) : List Nat :=
  (handles.filter (·.id = id)).flatMap fun h => h.dispose.2

/-- The registry after the handles with this number have been disposed of. -/
def released (id : Nat) (s : Tenure) : Registry :=
  (gone id s.handles).foldl (fun r id => r.release id) s.registry

def dispose (id : Nat) (s : Tenure) : Tenure :=
  ⟨s.released id, s.handles.map fun h => if h.id = id then h.dispose.1 else h⟩

def drop (id : Nat) (s : Tenure) : Tenure :=
  ⟨s.released id, s.handles.filter (·.id ≠ id)⟩

/-- Routes an event, with the registrations taken in some order. -/
def route (t : Tree) (event : FileEvent) (order : List Nat) (s : Tenure) : Tenure :=
  ⟨(s.registry.routeIn t event order).service, s.handles⟩

def deliver (delivery : Delivery) (s : Tenure) : Tenure :=
  ⟨s.registry.deliver delivery, s.handles⟩

/-- Asks whether events were lost. -/
def takeOverflow (s : Tenure) : Tenure := ⟨s.registry.takeOverflow.2, s.handles⟩

/-- What can happen to a tenure. -/
inductive Step (s : Tenure) : Tenure → Prop
  | watch (t : Tree) (target : Path) (route : Route) : Step s (s.watch t target route)
  | dispose (id : Nat) : Step s (s.dispose id)
  | drop (id : Nat) : Step s (s.drop id)
  | route (t : Tree) (event : FileEvent) (order : List Nat) :
    order.Perm (s.registry.registrations.map (·.id)) → Step s (s.route t event order)
  | deliver (delivery : Delivery) : Step s (s.deliver delivery)
  | takeOverflow : Step s s.takeOverflow

inductive Reached (refuses : Nat → Path → Option String) : Tenure → Prop
  | start : Reached refuses (start refuses)
  | step {s s' : Tenure} : Reached refuses s → Step s s' → Reached refuses s'

/-- The numbers of the handles that are live. -/
def liveIds (handles : List Handle) : List Nat := (handles.filter (·.live)).map (·.id)

/-- Disposing of a handle releases it if it is live. -/
theorem dispose_eq (h : Handle) : h.dispose = (⟨h.id, false⟩, liveIds [h]) := by
  rw [Handle.dispose]
  cases live : h.live <;> simp [liveIds, live]

theorem liveIds_append (l m : List Handle) : liveIds (l ++ m) = liveIds l ++ liveIds m := by
  simp [liveIds]

theorem liveIds_cons (h : Handle) (handles : List Handle) :
    liveIds (h :: handles) = liveIds [h] ++ liveIds handles :=
  liveIds_append [h] handles

/-! ### Disposal -/

theorem gone_eq (id : Nat) (handles : List Handle) :
    gone id handles = (liveIds handles).filter (· = id) := by
  have released : ∀ hs : List Handle, (hs.flatMap fun h => h.dispose.2) = liveIds hs := by
    intro hs
    induction hs with
    | nil => rfl
    | cons h rest ih => rw [List.flatMap_cons, ih, liveIds_cons, dispose_eq]
  rw [gone, released]
  simp only [liveIds, List.filter_map, List.filter_filter, Function.comp_def, Bool.and_comm]

theorem mem_gone {id n : Nat} {handles : List Handle} :
    n ∈ gone id handles ↔ n = id ∧ id ∈ liveIds handles := by
  rw [gone_eq, List.mem_filter, decide_eq_true_eq, and_comm]
  exact and_congr_right fun same => by rw [same]

theorem liveIds_dispose (id : Nat) (handles : List Handle) :
    liveIds (handles.map fun h => if h.id = id then h.dispose.1 else h) =
      (liveIds handles).filter (· ≠ id) := by
  induction handles with
  | nil => rfl
  | cons h rest ih =>
    rw [List.map_cons, liveIds_cons, liveIds_cons h, List.filter_append, ih]
    by_cases he : h.id = id
    · rw [if_pos he]
      cases live : h.live <;> simp [Handle.dispose, liveIds, he, live]
    · rw [if_neg he]
      cases live : h.live <;> simp [liveIds, he, live]

theorem ids_dispose (id : Nat) (handles : List Handle) :
    (handles.map fun h => if h.id = id then h.dispose.1 else h).map (·.id) =
      handles.map (·.id) := by
  rw [List.map_map]
  refine List.map_congr_left fun h _ => ?_
  rw [Function.comp_apply]
  split <;> rfl

theorem liveIds_drop (id : Nat) (handles : List Handle) :
    liveIds (handles.filter (·.id ≠ id)) = (liveIds handles).filter (· ≠ id) := by
  simp only [liveIds, List.filter_map, List.filter_filter, Function.comp_def, Bool.and_comm]

theorem foldl_release (ids : List Nat) {r : Registry} (h : r.Exact) :
    (ids.foldl (fun r id => r.release id) r).Exact ∧
    (ids.foldl (fun r id => r.release id) r).registrations.map (·.id) =
      (r.registrations.map (·.id)).filter (· ∉ ids) ∧
    (ids.foldl (fun r id => r.release id) r).nextId = r.nextId := by
  induction ids generalizing r with
  | nil => exact ⟨h, by simp, rfl⟩
  | cons id rest ih =>
    obtain ⟨exact, owned, next⟩ := ih (h.release id)
    refine ⟨exact, owned.trans ?_, next.trans (Registry.sameRoll_release id r).nextId⟩
    rw [(Registry.sameRoll_release id r).ids]
    simp only [List.filter_map, List.filter_filter, Function.comp_def, List.mem_cons, not_or]
    refine congrArg _ (List.filter_congr fun reg _ => ?_)
    simp [Bool.and_comm]

/-! ### What a tenure keeps -/

/-- The references are exact, and the registrations are those of the live handles. -/
structure Good (s : Tenure) : Prop where
  exact : s.registry.Exact
  owned : s.registry.registrations.map (·.id) = liveIds s.handles
  distinct : (s.handles.map (·.id)).Nodup
  given : ∀ id ∈ s.handles.map (·.id), id < s.registry.nextId

namespace Good

variable {s : Tenure}

theorem start (refuses : Nat → Path → Option String) : Good (start refuses) where
  exact := .empty refuses 0
  owned := rfl
  distinct := .nil
  given _ h := absurd h List.not_mem_nil

theorem released (h : Good s) (id : Nat) :
    (s.released id).Exact ∧
    (s.released id).registrations.map (·.id) = (liveIds s.handles).filter (· ≠ id) ∧
    (s.released id).nextId = s.registry.nextId := by
  obtain ⟨exact, owned, next⟩ := foldl_release (gone id s.handles) h.exact
  refine ⟨exact, owned.trans ?_, next⟩
  rw [h.owned]
  refine List.filter_congr fun n hn => ?_
  simp only [mem_gone, decide_eq_decide]
  constructor
  · rintro no rfl
    exact no ⟨rfl, hn⟩
  · rintro ne ⟨he, -⟩
    exact ne he

theorem dispose (h : Good s) (id : Nat) : Good (s.dispose id) := by
  obtain ⟨exact, owned, next⟩ := h.released id
  have same : (s.dispose id).handles.map (·.id) = s.handles.map (·.id) := ids_dispose id s.handles
  refine ⟨exact, owned.trans (liveIds_dispose id s.handles).symm, by rw [same]; exact h.distinct,
    fun n hn => ?_⟩
  rw [same] at hn
  exact lt_of_lt_of_eq (h.given n hn) next.symm

theorem drop (h : Good s) (id : Nat) : Good (s.drop id) := by
  obtain ⟨exact, owned, next⟩ := h.released id
  have fewer : ((s.drop id).handles.map (·.id)).Sublist (s.handles.map (·.id)) :=
    List.filter_sublist.map _
  exact ⟨exact, owned.trans (liveIds_drop id s.handles).symm, fewer.nodup h.distinct,
    fun n hn => lt_of_lt_of_eq (h.given n (fewer.subset hn)) next.symm⟩

theorem route (h : Good s) (t : Tree) (event : FileEvent) (order : List Nat) :
    Good (s.route t event order) := by
  have same := Registry.sameRoll_routeIn t event order s.registry
  exact ⟨h.exact.routeIn t event order, same.ids.trans h.owned, h.distinct,
    fun n hn => lt_of_lt_of_eq (h.given n hn) same.nextId.symm⟩

/-- The flag has no part in it. -/
theorem flagged (h : Good s) (overflowed : Bool) :
    Good ⟨{ s.registry with overflowed }, s.handles⟩ :=
  ⟨h.exact.flagged overflowed, h.owned, h.distinct, h.given⟩

theorem deliver (h : Good s) (delivery : Delivery) : Good (s.deliver delivery) := by
  cases delivery with
  | queued => exact h
  | full => exact h.flagged true
  | closed => exact h

theorem watch (h : Good s) (t : Tree) (target : Path) (route : Route) :
    Good (s.watch t target route) := by
  have exact := h.exact.watch t target route
  unfold Tenure.watch
  obtain ⟨_, ho, same⟩ | ⟨ho, directory, fileName, same⟩ :=
    Registry.watch_cases t target route s.registry
  · dsimp only
    rw [ho]
    exact ⟨exact, same.ids.trans h.owned, h.distinct,
      fun n hn => lt_of_lt_of_eq (h.given n hn) same.nextId.symm⟩
  · dsimp only
    rw [ho]
    refine ⟨exact, ?_, ?_, fun n hn => ?_⟩
    · rw [same.ids, Registry.enroll, List.map_append, h.owned]
      simp [liveIds, Handle.new]
    · rw [List.map_append, List.nodup_append]
      refine ⟨h.distinct, List.nodup_singleton _, ?_⟩
      intro a ha b hb
      cases List.mem_singleton.1 hb
      exact Nat.ne_of_lt (h.given a ha)
    · rw [same.nextId]
      rw [List.map_append] at hn
      rcases List.mem_append.1 hn with hn | hn
      · exact Nat.lt_succ_of_lt (h.given n hn)
      · cases List.mem_singleton.1 hn
        exact Nat.lt_succ_self _

theorem step {s' : Tenure} (h : Good s) (hs : Step s s') : Good s' := by
  cases hs with
  | watch t target route => exact h.watch t target route
  | dispose id => exact h.dispose id
  | drop id => exact h.drop id
  | route t event order => exact h.route t event order
  | deliver delivery => exact h.deliver delivery
  | takeOverflow => exact h.flagged false

end Good

theorem Reached.good {refuses : Nat → Path → Option String} {s : Tenure} (h : Reached refuses s) :
    Good s := by
  induction h with
  | start => exact .start refuses
  | step _ hs ih => exact ih.step hs

/-! ### Lost events -/

/-- Only a full channel raises the flag, and only the question for it lowers it. -/
theorem overflowed_step {s s' : Tenure} (h : Step s s') :
    s'.registry.overflowed = s.registry.overflowed ∨
      s' = s.deliver .full ∨ s' = s.takeOverflow := by
  have released : ∀ (ids : List Nat) (r : Registry),
      (ids.foldl (fun r id => r.release id) r).overflowed = r.overflowed := by
    intro ids
    induction ids with
    | nil => exact fun _ => rfl
    | cons id rest ih => exact fun r => (ih _).trans (Registry.sameRoll_release id r).overflowed
  cases h with
  | watch t target route =>
    refine .inl ?_
    have same : (s.registry.watch t target route).service.overflowed = s.registry.overflowed := by
      obtain ⟨_, -, same⟩ | ⟨-, _, _, same⟩ := Registry.watch_cases t target route s.registry
      · exact same.overflowed
      · exact same.overflowed
    unfold watch
    dsimp only
    split <;> exact same
  | dispose id => exact .inl (released _ _)
  | drop id => exact .inl (released _ _)
  | route t event order =>
    exact .inl (Registry.sameRoll_routeIn t event order s.registry).overflowed
  | deliver delivery =>
    cases delivery with
    | queued => exact .inl rfl
    | full => exact .inr (.inl rfl)
    | closed => exact .inl rfl
  | takeOverflow => exact .inr (.inr rfl)

/-- A flag that is up was raised by a full channel, and nothing has lowered it since. -/
theorem exists_full_of_overflowed {refuses : Nat → Path → Option String} {s : Tenure}
    (h : Reached refuses s) (up : s.registry.overflowed = true) :
    ∃ lossy, Reached refuses lossy ∧
      Relation.ReflTransGen (fun a b => Step a b ∧ b.registry.overflowed = true)
        (lossy.deliver .full) s := by
  induction h with
  | start => cases up
  | @step s s' reached one ih =>
    obtain same | rfl | rfl := overflowed_step one
    · obtain ⟨lossy, before, since⟩ := ih (same.symm.trans up)
      exact ⟨lossy, before, since.tail ⟨one, up⟩⟩
    · exact ⟨s, reached, .refl⟩
    · cases up

/-! ### The references of a tenure -/

/-- The references of the registry are those of the registrations: each directory has as many as
registrations are armed there, no count is zero, every armed registration has one, also when it is
about to give it up, and the system watches just the directories that have a count. So the watches
of the system are as many as there are directories with a registration, and none is left when no
handle is live. -/
structure RefersExactly (s : Tenure) : Prop where
  counted : ∀ key, s.registry.referencesTo key =
    s.registry.registrations.countP fun reg => reg.armed.any fun a => a.key.same key
  positive : ∀ ref ∈ s.registry.references, 0 < ref.2
  due : ∀ r id, s.registry.Due r id → ∀ reg ∈ r.registrations, reg.id = id →
    ∀ a, reg.armed = some a → 0 < r.referencesTo a.key
  armed : ∀ reg ∈ s.registry.registrations, ∀ a, reg.armed = some a →
    ∃ ref ∈ s.registry.references, ref.1.same a.key
  distinct : (s.registry.references.map fun ref => ref.1.components).Nodup
  held : s.registry.watcher.held = s.registry.references.map (·.1)
  watched : s.registry.watchedDirectories = ((s.registry.registrations.filterMap fun reg =>
    reg.armed.map fun a => a.key.components).dedup).length
  watched_le : s.registry.watchedDirectories ≤ (WatchService.live s.registry).length
  idle : (∀ handle ∈ s.handles, handle.live = false) →
    s.registry.watchedDirectories = 0 ∧ WatchService.live s.registry = []

/-- At all times the references are exact. -/
theorem references_exact {refuses : Nat → Path → Option String} {s : Tenure}
    (h : Reached refuses s) : RefersExactly s := by
  have good := h.good
  have counts := good.exact.counts
  have atMost := good.exact.watchedDirectories_le
  exact {
    counted := good.exact.referencesTo
    positive := fun ref hr => (counts.counted ref hr).2
    due := fun r id due reg hr _ a ha => (good.exact.due due).referencesTo_pos hr ha
    armed := fun reg hr a ha => by
      obtain ⟨p, hp, he⟩ := Registry.isWatched_iff.1
        (counts.watched a.key (Registry.mem_armedKeys.2 ⟨reg, hr, a, ha, rfl⟩))
      obtain ⟨ref, hm, rfl⟩ := List.mem_map.1 hp
      exact ⟨ref, hm, Path.same_iff.2 he⟩
    distinct := by simpa [Registry.entries, Function.comp_def] using counts.distinct
    held := counts.held
    watched := good.exact.watchedDirectories_eq
    watched_le := Nat.le_trans atMost (Nat.le_of_eq (List.length_map _).symm)
    idle := fun dead => by
      have none : s.registry.registrations = [] := by
        rw [← List.map_eq_nil_iff (f := (·.id)), good.owned, liveIds, List.map_eq_nil_iff,
          List.filter_eq_nil_iff]
        intro handle hh
        simp [dead handle hh]
      refine ⟨?_, by simp [WatchService.live, none]⟩
      rw [none] at atMost
      exact Nat.le_zero.1 atMost }

/-- Two directories, for the tenure below. -/
def twoRooms : Tree := ⟨[], [(["w".toList], .directory), (["x".toList], .directory)]⟩

/-- The second request to the system is refused. Two files are watched in one directory, which is
spelled in two ways, and a third one in the directory that is refused; the first handle is disposed
of twice. -/
def shared : Tenure :=
  ((((start fun n _ => if n = 1 then some "no" else none).watch twoRooms ⟨"/w/a.su"⟩ .location).watch
    twoRooms ⟨"/x/../w/b.su"⟩ .location).watch twoRooms ⟨"/x/c.su"⟩ .location).dispose 1 |>.dispose 1

theorem references_shared :
    shared.registry.referencesTo ⟨"/w"⟩ = 1 ∧ shared.registry.watchedDirectories = 1 := by
  have reached : Reached (fun n _ => if n = 1 then some "no" else none) shared :=
    ((((Reached.start.step (.watch _ _ _)).step (.watch _ _ _)).step (.watch _ _ _)).step
      (.dispose 1)).step (.dispose 1)
  have exact := references_exact reached
  refine ⟨(exact.counted _).trans ?_, exact.watched.trans ?_⟩
  · decide +kernel
  · decide +kernel

end Tenure

end StackUsage

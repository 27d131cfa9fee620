import StackUsage.Watch.Registry
import StackUsage.Watch.Roster

/-! The contract of a watch service, and that both services keep it. A granted watch joins the live
ones under a number that none of them has, a refused one changes none of them, a release takes out
exactly its number, and neither events nor the question for lost ones touch them. An event yields
routes of live watches only. The order of the live watches is left open, and whether a path is
accepted is no part of the contract. -/

namespace StackUsage

namespace WatchService

/-- What a service promises in its sound states, and that it stays sound. -/
structure Lawful (σ : Type) [WatchService σ] (sound : σ → Prop) : Prop where
  sound_watch : ∀ {s : σ} (t : Tree) (path : Path) (route : Route), sound s →
    sound (watch t path route s).service
  sound_release : ∀ {s : σ} (id : Nat), sound s → sound (release id s)
  sound_route : ∀ {s : σ} (t : Tree) (event : FileEvent), sound s →
    sound (route t event s).service
  sound_takeOverflow : ∀ {s : σ}, sound s → sound (takeOverflow s).2
  live_granted : ∀ {s : σ} {t : Tree} {path : Path} {route : Route} {id : Nat}, sound s →
    (watch t path route s).outcome = .ok id →
      (live (watch t path route s).service).Perm (live s ++ [⟨id, path, route⟩])
  fresh : ∀ {s : σ} {t : Tree} {path : Path} {route : Route} {id : Nat}, sound s →
    (watch t path route s).outcome = .ok id → ∀ w ∈ live s, w.id ≠ id
  live_refused : ∀ {s : σ} {t : Tree} {path : Path} {route : Route} {refusal : WatchRefusal},
    sound s → (watch t path route s).outcome = .error refusal →
      (live (watch t path route s).service).Perm (live s)
  live_release : ∀ {s : σ} (id : Nat), sound s →
    (live (release id s)).Perm ((live s).filter (·.id ≠ id))
  live_route : ∀ {s : σ} (t : Tree) (event : FileEvent), sound s →
    (live (route t event s).service).Perm (live s)
  live_takeOverflow : ∀ {s : σ}, sound s → (live (takeOverflow s).2).Perm (live s)
  routes_live : ∀ {s : σ} (t : Tree) (event : FileEvent), sound s →
    ∀ r ∈ (route t event s).routes, ∃ w ∈ live s, w.route = r

/-- What a service keeps besides makes no difference to the contract. -/
theorem Lawful.restrict {σ : Type} [WatchService σ] {sound keep : σ → Prop} (law : Lawful σ sound)
    (keep_watch : ∀ {s : σ} (t : Tree) (path : Path) (route : Route), keep s →
      keep (watch t path route s).service)
    (keep_release : ∀ {s : σ} (id : Nat), keep s → keep (release id s))
    (keep_route : ∀ {s : σ} (t : Tree) (event : FileEvent), keep s →
      keep (route t event s).service)
    (keep_takeOverflow : ∀ {s : σ}, keep s → keep (takeOverflow s).2) :
    Lawful σ fun s => sound s ∧ keep s where
  sound_watch t path route h := ⟨law.sound_watch t path route h.1, keep_watch t path route h.2⟩
  sound_release id h := ⟨law.sound_release id h.1, keep_release id h.2⟩
  sound_route t event h := ⟨law.sound_route t event h.1, keep_route t event h.2⟩
  sound_takeOverflow h := ⟨law.sound_takeOverflow h.1, keep_takeOverflow h.2⟩
  live_granted h := law.live_granted h.1
  fresh h := law.fresh h.1
  live_refused h := law.live_refused h.1
  live_release id h := law.live_release id h.1
  live_route t event h := law.live_route t event h.1
  live_takeOverflow h := law.live_takeOverflow h.1
  routes_live t event h := law.routes_live t event h.1

/-- Whether the service, as long as it is sound, refuses no watch on the path. -/
def Accepts (σ : Type) [WatchService σ] (sound : σ → Prop) (path : Path) : Prop :=
  ∀ (t : Tree) (route : Route) (s : σ), sound s → ∃ id, (watch t path route s).outcome = .ok id

end WatchService

/-! ### The roster -/

namespace Roster

open WatchService

/-- The next number is above all numbers in use. -/
def Sound (r : Roster) : Prop := ∀ w ∈ r.watches, w.id < r.nextId

theorem sound_empty : Sound .empty := fun _ h => absurd h List.not_mem_nil

theorem watch_cases (target : Path) (route : Route) (r : Roster) :
    (∃ refusal, (r.watch target route).outcome = .error refusal ∧
      (r.watch target route).service.watches = r.watches ∧
      (r.watch target route).service.nextId = r.nextId) ∨
    ((r.watch target route).outcome = .ok r.nextId ∧
      (r.watch target route).service.watches = r.watches ++ [⟨r.nextId, target, route⟩] ∧
      (r.watch target route).service.nextId = r.nextId + 1) := by
  unfold watch
  by_cases h : r.refuses r.requests target = true
  · exact .inl ⟨_, by rw [if_pos h], by rw [if_pos h], by rw [if_pos h]⟩
  · exact .inr ⟨by rw [if_neg h], by rw [if_neg h], by rw [if_neg h]⟩

theorem sound_watch {r : Roster} (h : Sound r) (target : Path) (route : Route) :
    Sound (r.watch target route).service := by
  intro w hw
  obtain ⟨_, -, hs, hn⟩ | ⟨-, hs, hn⟩ := watch_cases target route r
  · rw [hs] at hw
    rw [hn]
    exact h w hw
  · rw [hs, List.mem_append, List.mem_singleton] at hw
    rw [hn]
    rcases hw with hw | rfl
    · exact Nat.lt_succ_of_lt (h w hw)
    · exact Nat.lt_succ_self _

theorem lawful : Lawful Roster Sound where
  sound_watch _ target route h := sound_watch h target route
  sound_release _ h w hw := h w (List.mem_filter.1 hw).1
  sound_route _ _ h := h
  sound_takeOverflow h := h
  live_granted {r _ path route id} _ ho := by
    obtain ⟨_, he, -, -⟩ | ⟨ho', hs, -⟩ := watch_cases path route r
    · cases he.symm.trans ho
    · cases ho'.symm.trans ho
      exact .of_eq hs
  fresh {r _ path route id} h ho w hw := by
    obtain ⟨_, he, -, -⟩ | ⟨ho', -, -⟩ := watch_cases path route r
    · cases he.symm.trans ho
    · cases ho'.symm.trans ho
      exact Nat.ne_of_lt (h w hw)
  live_refused {r _ path route _} _ ho := by
    obtain ⟨_, -, hs, -⟩ | ⟨ho', -, -⟩ := watch_cases path route r
    · exact .of_eq hs
    · cases ho'.symm.trans ho
  live_release _ _ := .refl _
  live_route _ _ _ := .refl _
  live_takeOverflow _ := .refl _
  routes_live _ _ _ route h := by
    obtain ⟨p, -, hr⟩ := List.mem_flatMap.1 h
    obtain ⟨w, hw, rfl⟩ := List.mem_map.1 hr
    exact ⟨w, (List.mem_filter.1 hw).1, rfl⟩

/-- A roster that refuses nothing, now or later. -/
def Willing (r : Roster) : Prop := Sound r ∧ ∀ n p, r.refuses n p = false

theorem refuses_watch (target : Path) (route : Route) (r : Roster) :
    (r.watch target route).service.refuses = r.refuses := by
  unfold watch
  split <;> rfl

theorem lawful_willing : Lawful Roster Willing := by
  refine lawful.restrict ?_ (fun _ h => h) (fun _ _ h => h) (fun h => h)
  intro r _ target route h
  change ∀ n p, (r.watch target route).service.refuses n p = false
  rw [refuses_watch]
  exact h

theorem accepts_willing (path : Path) : Accepts Roster Willing path := by
  rintro t route r ⟨-, h⟩
  refine ⟨r.nextId, ?_⟩
  change (r.watch path route).outcome = _
  rw [watch, if_neg (by simp [h])]

end Roster

/-! ### The registry -/

namespace Registry

open WatchService

/-- The next number is above all numbers in use. -/
def Sound (r : Registry) : Prop := ∀ reg ∈ r.registrations, reg.id < r.nextId

theorem sound_empty (watcher : DirectoryWatcher) : Sound (.empty watcher) :=
  fun _ h => absurd h List.not_mem_nil

/-- What a registration is, wherever it is armed. -/
def seen (reg : Registration) : LiveWatch := ⟨reg.id, reg.target, reg.route⟩

/-- The same registrations, perhaps armed elsewhere, and the same next number and flag. -/
structure SameRoll (r r' : Registry) : Prop where
  live : r'.registrations.map seen = r.registrations.map seen
  nextId : r'.nextId = r.nextId
  overflowed : r'.overflowed = r.overflowed

theorem SameRoll.refl (r : Registry) : SameRoll r r := ⟨rfl, rfl, rfl⟩

theorem SameRoll.trans {r₁ r₂ r₃ : Registry} (h : SameRoll r₁ r₂) (h' : SameRoll r₂ r₃) :
    SameRoll r₁ r₃ where
  live := h'.live.trans h.live
  nextId := h'.nextId.trans h.nextId
  overflowed := h'.overflowed.trans h.overflowed

theorem sound_iff {r : Registry} :
    Sound r ↔ ∀ w ∈ r.registrations.map seen, w.id < r.nextId := by
  simp only [Sound, List.mem_map, forall_exists_index, and_imp, forall_apply_eq_imp_iff₂]
  rfl

theorem SameRoll.sound {r r' : Registry} (h : SameRoll r r') (hs : Sound r) : Sound r' := by
  rw [sound_iff, h.live, h.nextId]
  exact sound_iff.1 hs

theorem sameRoll_setArmed (r : Registry) (id : Nat) (armed : Option Armed) :
    SameRoll r (r.setArmed id armed) := by
  refine ⟨?_, rfl, rfl⟩
  simp only [setArmed, List.map_map]
  apply List.map_congr_left
  intro reg _
  simp only [Function.comp_apply]
  split <;> rfl

theorem sameRoll_acquire (r : Registry) (key : Path) : SameRoll r (r.acquire key).2 := by
  unfold acquire
  split
  · exact ⟨rfl, rfl, rfl⟩
  · split <;> exact ⟨rfl, rfl, rfl⟩

theorem sameRoll_leave (r : Registry) (reg : Registration) : SameRoll r (r.leave reg) := by
  unfold leave
  split <;> exact ⟨rfl, rfl, rfl⟩

theorem sameRoll_moveTo (r : Registry) (reg : Registration) (place : Option Armed) :
    SameRoll r (r.moveTo reg place).1 := by
  have hl := r.sameRoll_leave reg
  unfold moveTo
  split
  · exact hl.trans (sameRoll_setArmed ..)
  · next place =>
    have ha := (r.leave reg).sameRoll_acquire place.key
    split
    · next hq =>
      rw [hq] at ha
      exact (hl.trans ha).trans (sameRoll_setArmed ..)
    · next hq =>
      rw [hq] at ha
      exact (hl.trans ha).trans (sameRoll_setArmed ..)

theorem sameRoll_arm (t : Tree) (r : Registry) (id : Nat) : SameRoll r (r.arm t id).1 := by
  unfold arm
  split
  · exact .refl r
  · split
    · exact .refl r
    · exact sameRoll_moveTo ..

theorem sameRoll_rearm (t : Tree) (r : Registry) : SameRoll r (r.rearm t).registry := by
  have step : ∀ (ids : List Nat) (round : Round),
      SameRoll round.registry (ids.foldl (Round.next t) round).registry := by
    intro ids
    induction ids with
    | nil => exact fun round => .refl _
    | cons id rest ih =>
      intro round
      exact (sameRoll_arm t round.registry id).trans (ih (round.next t id))
  exact step _ ⟨r, [], []⟩

theorem sameRoll_route (t : Tree) (event : FileEvent) (r : Registry) :
    SameRoll r (r.route t event).service := by
  unfold route
  split
  · exact .refl r
  · split
    · exact sameRoll_rearm t r
    · exact .refl r

/-- A path that has a parent and a name is never refused. -/
theorem watch_placed {t : Tree} {target directory : Path} {fileName : String} {r : Registry}
    (hd : target.parent = some directory) (hf : target.fileName = some fileName) (route : Route) :
    (watch t target route r).outcome = .ok r.nextId ∧
      SameRoll (r.enroll target directory fileName route) (watch t target route r).service := by
  simp only [watch, hd, hf, true_and]
  exact sameRoll_arm ..

theorem watch_unplaced {t : Tree} {target : Path} {r : Registry}
    (h : target.parent = none ∨ target.fileName = none) (route : Route) :
    watch t target route r = ⟨.error (.unplaced target), [], r⟩ := by
  rcases h with h | h
  · simp [watch, h]
  · cases hd : target.parent <;> simp [watch, hd, h]

theorem watch_cases (t : Tree) (target : Path) (route : Route) (r : Registry) :
    (∃ refusal, (watch t target route r).outcome = .error refusal ∧
      SameRoll r (watch t target route r).service) ∨
    ((watch t target route r).outcome = .ok r.nextId ∧
      ∃ directory fileName, SameRoll (r.enroll target directory fileName route)
        (watch t target route r).service) := by
  cases hd : target.parent with
  | none => exact .inl ⟨_, by rw [watch_unplaced (.inl hd)], by
      rw [watch_unplaced (.inl hd)]
      exact .refl r⟩
  | some directory =>
    cases hf : target.fileName with
    | none => exact .inl ⟨_, by rw [watch_unplaced (.inr hf)], by
        rw [watch_unplaced (.inr hf)]
        exact .refl r⟩
    | some fileName =>
      obtain ⟨ho, hs⟩ := watch_placed (t := t) (r := r) hd hf route
      exact .inr ⟨ho, directory, fileName, hs⟩

theorem sound_enroll {r : Registry} (h : Sound r) (target directory : Path) (fileName : String)
    (route : Route) : Sound (r.enroll target directory fileName route) := by
  intro reg hr
  simp only [enroll, List.mem_append, List.mem_singleton] at hr ⊢
  rcases hr with hr | rfl
  · exact Nat.lt_succ_of_lt (h reg hr)
  · exact Nat.lt_succ_self _

theorem sameRoll_foldl_leave (gone : List Registration) (r : Registry) :
    SameRoll r (gone.foldl leave r) := by
  induction gone generalizing r with
  | nil => exact .refl r
  | cons reg rest ih => exact (r.sameRoll_leave reg).trans (ih _)

theorem sameRoll_release (id : Nat) (r : Registry) :
    SameRoll { r with registrations := r.registrations.filter (·.id ≠ id) } (r.release id) :=
  sameRoll_foldl_leave _ _

theorem map_seen_filter (regs : List Registration) (id : Nat) :
    (regs.filter (·.id ≠ id)).map seen = (regs.map seen).filter (·.id ≠ id) := by
  rw [List.filter_map]
  rfl

/-! ### Routes of a registry -/

theorem exists_live_of_mem {r : Registry} {reg : Registration} (h : reg ∈ r.registrations) :
    ∃ w ∈ r.registrations.map seen, w.route = reg.route := ⟨_, List.mem_map_of_mem h, rfl⟩

theorem live_of_mem_hits {r : Registry} {p : Path} {route : Route} (h : route ∈ r.hits p) :
    ∃ w ∈ r.registrations.map seen, w.route = route := by
  unfold hits at h
  split at h
  · obtain ⟨reg, hr, rfl⟩ := List.mem_map.1 h
    exact exists_live_of_mem (List.mem_filter.1 hr).1
  · cases h

theorem live_of_mem_arrivals {before after : Registry} {id : Nat} {route : Route}
    (h : route ∈ arrivals before after id) :
    ∃ w ∈ after.registrations.map seen, w.route = route := by
  unfold arrivals at h
  split at h
  · cases h
  · obtain ⟨reg, hr, rfl⟩ := List.mem_map.1 h
    exact exists_live_of_mem (List.mem_filter.1 hr).1

/-- Whoever comes home in a round of arming was registered before it. -/
theorem live_of_mem_fired {t : Tree} {r : Registry} {route : Route}
    (h : route ∈ (r.rearm t).fired) : ∃ w ∈ r.registrations.map seen, w.route = route := by
  have step : ∀ (ids : List Nat) (round : Round), SameRoll r round.registry →
      (∀ route ∈ round.fired, ∃ w ∈ r.registrations.map seen, w.route = route) →
        ∀ route ∈ (ids.foldl (Round.next t) round).fired,
          ∃ w ∈ r.registrations.map seen, w.route = route := by
    intro ids
    induction ids with
    | nil => exact fun _ _ fired => fired
    | cons id rest ih =>
      intro round same fired
      have moved := same.trans (sameRoll_arm t round.registry id)
      refine ih (round.next t id) moved fun route hr => ?_
      rcases List.mem_append.1 hr with hr | hr
      · exact fired route hr
      · rw [← moved.live]
        exact live_of_mem_arrivals hr
  exact step _ ⟨r, [], []⟩ (.refl r) (by simp) route h

theorem live_of_mem_route {t : Tree} {event : FileEvent} {r : Registry} {route : Route}
    (h : route ∈ (r.route t event).routes) : ∃ w ∈ r.registrations.map seen, w.route = route := by
  have hit : route ∈ event.paths.flatMap r.hits →
      ∃ w ∈ r.registrations.map seen, w.route = route := by
    intro h
    obtain ⟨p, -, hp⟩ := List.mem_flatMap.1 h
    exact live_of_mem_hits hp
  unfold Registry.route at h
  split at h
  · cases h
  · split at h
    · exact (List.mem_append.1 h).elim hit live_of_mem_fired
    · exact hit h

theorem lawful : Lawful Registry Sound where
  sound_watch {r} t target route h := by
    obtain ⟨_, -, hs⟩ | ⟨-, _, _, hs⟩ := watch_cases t target route r
    · exact hs.sound h
    · exact hs.sound (sound_enroll h _ _ _ _)
  sound_release {r} id h :=
    (sameRoll_release id r).sound fun reg hr => h reg (List.mem_filter.1 hr).1
  sound_route {r} t event h := (sameRoll_route t event r).sound h
  sound_takeOverflow h := h
  live_granted {r t target route id} _ ho := by
    obtain ⟨_, he, -⟩ | ⟨ho', _, _, hs⟩ := watch_cases t target route r
    · cases he.symm.trans ho
    · cases ho'.symm.trans ho
      refine .of_eq (hs.live.trans ?_)
      rw [enroll, List.map_append]
      rfl
  fresh {r t target route id} h ho w hw := by
    obtain ⟨_, he, -⟩ | ⟨ho', -⟩ := watch_cases t target route r
    · cases he.symm.trans ho
    · cases ho'.symm.trans ho
      exact Nat.ne_of_lt (sound_iff.1 h w hw)
  live_refused {r t target route _} _ ho := by
    obtain ⟨_, -, hs⟩ | ⟨ho', -⟩ := watch_cases t target route r
    · exact .of_eq hs.live
    · cases ho'.symm.trans ho
  live_release {r} id _ := .of_eq ((sameRoll_release id r).live.trans (map_seen_filter _ _))
  live_route {r} t event _ := .of_eq (sameRoll_route t event r).live
  live_takeOverflow _ := .refl _
  routes_live _ _ _ _ h := live_of_mem_route h

theorem accepts {target directory : Path} {fileName : String}
    (hd : target.parent = some directory) (hf : target.fileName = some fileName) :
    Accepts Registry Sound target :=
  fun _ route r _ => ⟨r.nextId, (watch_placed hd hf route).1⟩

end Registry

end StackUsage

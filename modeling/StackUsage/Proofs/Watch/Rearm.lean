import StackUsage.Proofs.Path
import StackUsage.Proofs.Walk
import StackUsage.Proofs.Watch.Tenure

/-! Where registrations belong and when they move. A round of arming that is refused nothing leaves
every registration at the nearest directory that exists, in whatever order it takes them, and fires
those that have come home. So an event fires the registrations it names and those that come home. A
round takes place if some registration is away from home, or if the event removes a directory at
which one is armed. -/

namespace StackUsage

/-! ### The nearest directory -/

theorem nearestDirectory?_self {t : Tree} {directory : Path} (h : t.isDirectory directory = true) :
    nearestDirectory? t directory = some directory := by
  obtain ⟨loc, hf⟩ := Tree.isDirectory_iff.1 h
  obtain ⟨-, ne, -⟩ := Tree.locate_ok (Tree.entry_ok hf)
  obtain ⟨above, ha⟩ := directory.exists_ancestors
  rw [nearestDirectory?, ha, List.filter_cons_of_pos (by simpa using ne), List.find?_cons_of_pos h]

/-- A directory that is not there leaves its registrations further up. -/
theorem nearestDirectory?_above {t : Tree} {directory spelled : Path}
    (h : t.isDirectory directory = false) (hn : nearestDirectory? t directory = some spelled) :
    spelled.components ≠ directory.components := by
  have there : t.isDirectory spelled = true := List.find?_some hn
  have mem := (List.mem_filter.1 (List.mem_of_find?_eq_some hn)).1
  rcases Path.length_of_mem_ancestors mem with rfl | shorter
  · cases h.symm.trans there
  · exact fun he => absurd (congrArg List.length he) (Nat.ne_of_lt shorter)

namespace Registry

/-! ### Settling -/

theorem sameArmed_refl (a : Option Armed) : sameArmed a a = true := by
  cases a <;> simp [sameArmed, Armed.same, Path.same]

/-- The registration where it belongs. One that is there already keeps its spelling. -/
def settle (t : Tree) (reg : Registration) : Registration :=
  if sameArmed reg.armed (armedFor? t reg.directory) then reg
  else { reg with armed := armedFor? t reg.directory }

theorem settle_id (t : Tree) (reg : Registration) : (settle t reg).id = reg.id := by
  unfold settle
  split <;> rfl

theorem settle_directory (t : Tree) (reg : Registration) :
    (settle t reg).directory = reg.directory := by
  unfold settle
  split <;> rfl

theorem sameArmed_settle (t : Tree) (reg : Registration) :
    sameArmed (settle t reg).armed (armedFor? t reg.directory) = true := by
  unfold settle
  split
  · assumption
  · exact sameArmed_refl _

theorem settle_settle (t : Tree) (reg : Registration) : settle t (settle t reg) = settle t reg := by
  rw [settle, settle_directory, if_pos (sameArmed_settle t reg)]

/-- A move that is not refused arms the registration at the place and no other. -/
theorem moveTo_granted {r : Registry} {reg : Registration} {place : Option Armed}
    (granted : (r.moveTo reg place).2 = []) :
    (r.moveTo reg place).1.registrations = (r.setArmed reg.id place).registrations := by
  obtain ⟨rfl, he⟩ | ⟨a, next, -, hq, he⟩ | ⟨a, next, text, -, -, he⟩ := moveTo_cases r reg place
  · rw [he]
    simp only [setArmed, registrations_leave]
  · rw [he]
    simp only [setArmed, registrations_moved hq]
  · rw [he] at granted
    cases granted

/-- Arming one registration settles it and leaves the others alone. -/
theorem arm_granted {t : Tree} {r : Registry} {id : Nat}
    (distinct : (r.registrations.map (·.id)).Nodup) (granted : (r.arm t id).2 = []) :
    (r.arm t id).1.registrations =
      r.registrations.map fun reg => if reg.id = id then settle t reg else reg := by
  unfold arm at granted ⊢
  cases hf : r.registrations.find? (·.id = id) with
  | none =>
    refine (List.map_id' _).symm.trans (List.map_congr_left fun reg hr => ?_)
    have := List.find?_eq_none.1 hf reg hr
    rw [if_neg (by simpa using this)]
  | some reg =>
    have hid : reg.id = id := by simpa using List.find?_some hf
    -- No other registration has the number.
    have same : ∀ other ∈ r.registrations, other.id = id → other = reg := fun other ho he =>
      List.inj_on_of_nodup_map distinct ho (List.mem_of_find?_eq_some hf) (he.trans hid.symm)
    rw [hf] at granted
    dsimp only at granted ⊢
    by_cases hs : sameArmed reg.armed (armedFor? t reg.directory) = true
    · rw [if_pos hs]
      refine (List.map_id' _).symm.trans (List.map_congr_left fun other ho => ?_)
      split
      · next he => rw [same other ho he, settle, if_pos hs]
      · rfl
    · rw [if_neg hs] at granted ⊢
      rw [moveTo_granted granted, setArmed]
      refine List.map_congr_left fun other ho => ?_
      rw [hid]
      by_cases he : other.id = id
      · rw [if_pos he, if_pos he, same other ho he, settle, if_neg hs]
      · rw [if_neg he, if_neg he]

/-! ### Rounds -/

theorem warnings_foldl {t : Tree} {order : List Nat} {round : Round}
    (granted : (order.foldl (Round.next t) round).warnings = []) : round.warnings = [] := by
  induction order generalizing round with
  | nil => exact granted
  | cons id rest ih => exact (List.append_eq_nil_iff.1 (ih granted)).1

/-- A round that is refused nothing settles the registrations that it takes. -/
theorem rearmIn_granted {t : Tree} {r : Registry} {order : List Nat}
    (distinct : (r.registrations.map (·.id)).Nodup) (granted : (r.rearmIn t order).warnings = []) :
    (r.rearmIn t order).registry.registrations =
      r.registrations.map fun reg => if reg.id ∈ order then settle t reg else reg := by
  have fold : ∀ (order : List Nat) (round : Round),
      (round.registry.registrations.map (·.id)).Nodup →
      (order.foldl (Round.next t) round).warnings = [] →
      (order.foldl (Round.next t) round).registry.registrations =
        round.registry.registrations.map fun reg =>
          if reg.id ∈ order then settle t reg else reg := by
    intro order
    induction order with
    | nil => simp
    | cons id rest ih =>
      intro round distinct granted
      have quiet : (round.next t id).warnings = [] := warnings_foldl granted
      have first : (round.registry.arm t id).2 = [] := (List.append_eq_nil_iff.1 quiet).2
      have same := (sameRoll_arm t round.registry id).ids
      have moved := ih (round.next t id) (by
        change ((round.registry.arm t id).1.registrations.map (·.id)).Nodup
        rw [same]
        exact distinct) granted
      refine moved.trans ?_
      change (round.registry.arm t id).1.registrations.map _ = _
      rw [arm_granted distinct first, List.map_map]
      refine List.map_congr_left fun reg _ => ?_
      simp only [Function.comp_apply, List.mem_cons]
      by_cases he : reg.id = id
      · simp [he, settle_id, settle_settle]
      · simp [he]
  exact fold order ⟨r, [], []⟩ distinct granted

/-! ### Coming home -/

/-- The registrations that are at home and were not before. -/
def arrivers (before after : Registry) : List Registration :=
  after.registrations.filter fun reg => reg.isHome && !before.isHome reg.id

theorem isHome_of_mem {r : Registry} {reg : Registration} (hr : reg ∈ r.registrations)
    (hh : reg.isHome = true) : r.isHome reg.id = true :=
  List.any_eq_true.2 ⟨reg, hr, by simp [hh]⟩

/-- A number belongs to one registration, so it is at home if that one is. -/
theorem isHome_eq {r : Registry} (distinct : (r.registrations.map (·.id)).Nodup)
    {reg : Registration} (hr : reg ∈ r.registrations) : r.isHome reg.id = reg.isHome := by
  cases hh : reg.isHome with
  | true => exact isHome_of_mem hr hh
  | false =>
    refine List.any_eq_false.2 fun other ho => ?_
    simp only [Bool.and_eq_true, decide_eq_true_eq, not_and, Bool.not_eq_true]
    intro he
    rwa [List.inj_on_of_nodup_map distinct ho hr he]

theorem arrivers_self (r : Registry) : arrivers r r = [] := by
  refine List.filter_eq_nil_iff.2 fun reg hr => ?_
  cases hh : reg.isHome with
  | false => simp
  | true => simp [isHome_of_mem hr hh]

theorem others_setArmed (r : Registry) (id : Nat) (place : Option Armed) :
    (r.setArmed id place).registrations.filter (·.id ≠ id) =
      r.registrations.filter (·.id ≠ id) := by
  simp only [setArmed]
  induction r.registrations with
  | nil => rfl
  | cons reg rest ih =>
    rw [List.map_cons]
    by_cases he : reg.id = id
    · rw [if_pos he, List.filter_cons_of_neg (by simp [he]), List.filter_cons_of_neg (by simp [he]),
        ih]
    · rw [if_neg he, List.filter_cons_of_pos (by simp [he]), List.filter_cons_of_pos (by simp [he]),
        ih]

theorem others_moveTo (r : Registry) (reg : Registration) (place : Option Armed) :
    (r.moveTo reg place).1.registrations.filter (·.id ≠ reg.id) =
      r.registrations.filter (·.id ≠ reg.id) := by
  obtain ⟨-, he⟩ | ⟨a, next, -, hq, he⟩ | ⟨a, next, text, -, hq, he⟩ := moveTo_cases r reg place
  · rw [he, others_setArmed, registrations_leave]
  · rw [he, others_setArmed, registrations_moved hq]
  · rw [he, others_setArmed, registrations_moved hq]

/-- Whatever arming one registration does, it leaves those with other numbers as they are. -/
theorem others_arm (t : Tree) (r : Registry) (id : Nat) :
    (r.arm t id).1.registrations.filter (·.id ≠ id) = r.registrations.filter (·.id ≠ id) := by
  unfold arm
  cases hf : r.registrations.find? (·.id = id) with
  | none => rfl
  | some reg =>
    have hid : reg.id = id := by simpa using List.find?_some hf
    subst hid
    dsimp only
    split
    · rfl
    · exact others_moveTo r reg _

theorem isHome_of_others {r r' : Registry} {id n : Nat} (hn : n ≠ id)
    (h : r'.registrations.filter (·.id ≠ id) = r.registrations.filter (·.id ≠ id)) :
    r'.isHome n = r.isHome n := by
  have apart : ∀ s : Registry, s.isHome n =
      (s.registrations.filter (·.id ≠ id)).any fun reg => reg.id = n && reg.isHome := by
    intro s
    rw [List.any_filter]
    refine congrArg (s.registrations.any ·) (funext fun reg => ?_)
    by_cases he : reg.id = n <;> simp [he, hn]
  rw [apart, apart, h]

/-- Arrivals are those with other numbers and those with this one. -/
theorem arrivers_split (before after : Registry) (id : Nat) :
    (arrivers before after).Perm
      ((after.registrations.filter (·.id ≠ id)).filter
          (fun reg => reg.isHome && !before.isHome reg.id) ++
        after.registrations.filter fun reg => reg.id = id && reg.isHome && !before.isHome id) := by
  have parts := (List.filter_append_perm (fun reg : Registration => reg.id ≠ id)
    (arrivers before after)).symm
  refine parts.trans (.append (.of_eq (List.filter_comm ..)) (.of_eq ?_))
  rw [arrivers, List.filter_filter]
  refine List.filter_congr fun reg _ => ?_
  by_cases he : reg.id = id <;> simp [he]

/-- Arming a registration for the first time in a round fires it if it has come home. -/
theorem arrivers_arm {before r : Registry} (t : Tree) {id : Nat}
    (fresh : r.isHome id = before.isHome id) :
    ((arrivers before (r.arm t id).1).map (·.route)).Perm
      ((arrivers before r).map (·.route) ++ arrivals r (r.arm t id).1 id) := by
  have none : (r.registrations.filter fun reg =>
      reg.id = id && reg.isHome && !before.isHome id) = [] := by
    refine List.filter_eq_nil_iff.2 fun reg hr => ?_
    simp only [Bool.and_eq_true, decide_eq_true_eq, Bool.not_eq_true', not_and, Bool.not_eq_false]
    rintro ⟨rfl, hh⟩
    rw [← fresh]
    exact isHome_of_mem hr hh
  have stay := arrivers_split before r id
  rw [none, List.append_nil] at stay
  have moved := arrivers_split before (r.arm t id).1 id
  rw [others_arm] at moved
  have own : (((r.arm t id).1.registrations.filter fun reg =>
      reg.id = id && reg.isHome && !before.isHome id).map (·.route)) =
        arrivals r (r.arm t id).1 id := by
    unfold arrivals
    rw [fresh]
    cases before.isHome id <;> simp
  rw [← own, ← List.map_append]
  exact (moved.trans (stay.symm.append_right _)).map _

/-- A round that takes each registration at most once fires those that have come home. -/
theorem fired_rearmIn (t : Tree) (r : Registry) {order : List Nat} (once : order.Nodup) :
    (r.rearmIn t order).fired.Perm
      ((arrivers r (r.rearmIn t order).registry).map (·.route)) := by
  have fold : ∀ (order : List Nat) (round : Round), order.Nodup →
      (∀ id ∈ order, round.registry.isHome id = r.isHome id) →
      round.fired.Perm ((arrivers r round.registry).map (·.route)) →
      (order.foldl (Round.next t) round).fired.Perm
        ((arrivers r (order.foldl (Round.next t) round).registry).map (·.route)) := by
    intro order
    induction order with
    | nil => exact fun _ _ _ h => h
    | cons id rest ih =>
      intro round once fresh fired
      obtain ⟨hid, once⟩ := List.nodup_cons.1 once
      refine ih (round.next t id) once (fun n hn => ?_) ?_
      · have ne : n ≠ id := fun he => hid (he ▸ hn)
        refine Eq.trans ?_ (fresh n (List.mem_cons_of_mem _ hn))
        exact isHome_of_others ne (others_arm t round.registry id)
      · exact (fired.append_right _).trans (arrivers_arm t (fresh id List.mem_cons_self)).symm
  refine fold order ⟨r, [], []⟩ once (fun _ _ => rfl) (.of_eq ?_)
  rw [arrivers_self]
  rfl

/-! ### Events -/

/-- The registrations that a path of an event names. -/
def hitters (r : Registry) (p : Path) : List Registration :=
  match p.parent, p.fileName with
  | some directory, some name => r.registrations.filter fun reg => reg.isHit directory name
  | _, _ => []

theorem hits_eq (r : Registry) (p : Path) : r.hits p = (r.hitters p).map (·.route) := by
  unfold hits hitters
  cases p.parent <;> cases p.fileName <;> rfl

theorem isHome_of_mem_hitters {r : Registry} {p : Path} {reg : Registration}
    (h : reg ∈ r.hitters p) : reg ∈ r.registrations ∧ reg.isHome = true := by
  unfold hitters at h
  split at h
  · obtain ⟨hr, hit⟩ := List.mem_filter.1 h
    simp only [Registration.isHit, Bool.and_eq_true] at hit
    exact ⟨hr, hit.1.2⟩
  · cases h

theorem hitters_sublist (r : Registry) (p : Path) : (r.hitters p).Sublist r.registrations := by
  unfold hitters
  split
  · exact List.filter_sublist
  · exact List.nil_sublist _

/-- The registrations that fire at an event which leads from one registry to another: those that
it names, once for each path, and those that come home. -/
def firings (event : FileEvent) (before after : Registry) : List Registration :=
  event.paths.flatMap before.hitters ++ arrivers before after

theorem routes_routeIn (t : Tree) {event : FileEvent} (r : Registry) {order : List Nat}
    (once : order.Nodup) (relevant : event.kind.isRelevant = true) :
    (r.routeIn t event order).routes.Perm
      ((firings event r (r.routeIn t event order).service).map (·.route)) := by
  have named : event.paths.flatMap r.hits = (event.paths.flatMap r.hitters).map (·.route) := by
    rw [List.map_flatMap]
    exact congrArg (event.paths.flatMap ·) (funext r.hits_eq)
  unfold routeIn firings
  rw [relevant, named, List.map_append]
  simp only [Bool.not_true, Bool.false_eq_true, if_false]
  split
  · exact (fired_rearmIn t r once).append_left _
  · simp [arrivers_self]

/-! ### How often a registration fires -/

theorem count_hitters {r : Registry} (distinct : (r.registrations.map (·.id)).Nodup)
    {reg : Registration} (hr : reg ∈ r.registrations) (paths : List Path) :
    ((paths.flatMap r.hitters).map (·.id)).count reg.id =
      paths.countP fun p => reg ∈ r.hitters p := by
  induction paths with
  | nil => rfl
  | cons p rest ih =>
    rw [List.flatMap_cons, List.map_append, List.count_append, ih, List.countP_cons, Nat.add_comm]
    congr 1
    by_cases hit : reg ∈ r.hitters p
    · rw [if_pos (by simpa using hit)]
      exact List.count_eq_one_of_mem (((r.hitters_sublist p).map _).nodup distinct)
        (List.mem_map_of_mem hit)
    · rw [if_neg (by simpa using hit)]
      refine List.count_eq_zero_of_not_mem fun named => hit ?_
      obtain ⟨other, ho, he⟩ := List.mem_map.1 named
      rwa [← List.inj_on_of_nodup_map distinct (isHome_of_mem_hitters ho).1 hr he]

/-- A registration that is at home fires once for each path of the event that names it, and once
more if it has come home. -/
theorem count_firings (event : FileEvent) {before after : Registry}
    (distinct : (before.registrations.map (·.id)).Nodup)
    (distinct' : (after.registrations.map (·.id)).Nodup) {reg reg' : Registration}
    (hr : reg ∈ before.registrations) (hr' : reg' ∈ after.registrations)
    (same : reg'.id = reg.id) (home : reg'.isHome = true) :
    ((firings event before after).map (·.id)).count reg.id =
      (event.paths.countP fun p => reg ∈ before.hitters p) + if reg.isHome then 0 else 1 := by
  rw [firings, List.map_append, List.count_append, count_hitters distinct hr]
  congr 1
  cases hh : reg.isHome with
  | true =>
    refine List.count_eq_zero_of_not_mem fun arrived => ?_
    obtain ⟨other, ho, he⟩ := List.mem_map.1 arrived
    have away := (List.mem_filter.1 ho).2
    rw [he, isHome_eq distinct hr, hh] at away
    simp at away
  | false =>
    refine List.count_eq_one_of_mem ((List.filter_sublist.map _).nodup distinct') ?_
    rw [← same]
    refine List.mem_map_of_mem (List.mem_filter.2 ⟨hr', ?_⟩)
    rw [same, isHome_eq distinct hr, hh, home]
    rfl

/-! ### Settled registries -/

/-- Each registration is at its own directory, or at the nearest one above that exists. -/
def Settled (t : Tree) (r : Registry) : Prop :=
  ∀ reg ∈ r.registrations, sameArmed reg.armed (armedFor? t reg.directory) = true

instance (t : Tree) (r : Registry) : Decidable (Settled t r) :=
  inferInstanceAs (Decidable (∀ reg ∈ r.registrations, _))

theorem settled_rearmIn {t : Tree} {r : Registry} {order : List Nat}
    (distinct : (r.registrations.map (·.id)).Nodup)
    (ho : order.Perm (r.registrations.map (·.id))) (granted : (r.rearmIn t order).warnings = []) :
    Settled t (r.rearmIn t order).registry := by
  intro reg hr
  rw [rearmIn_granted distinct granted] at hr
  obtain ⟨old, hm, rfl⟩ := List.mem_map.1 hr
  rw [if_pos (ho.mem_iff.2 (List.mem_map_of_mem hm)), settle_directory]
  exact sameArmed_settle t old

/-- A settled registration is at home if its directory is there. -/
theorem Settled.home {t : Tree} {r : Registry} (h : Settled t r) {reg : Registration}
    (hr : reg ∈ r.registrations) (there : t.isDirectory reg.directory = true) :
    reg.isHome = true := by
  have same := h reg hr
  rw [armedFor?, nearestDirectory?_self there] at same
  cases ha : reg.armed with
  | none => simp [ha, sameArmed] at same
  | some a =>
    simp only [ha, Option.map_some, sameArmed, Armed.same, Bool.and_eq_true] at same
    simp [Registration.isHome, ha, same.1]

theorem Settled.away {t : Tree} {r : Registry} (h : Settled t r) {reg : Registration}
    (hr : reg ∈ r.registrations) (gone : t.isDirectory reg.directory = false) :
    reg.isHome = false := by
  have same := h reg hr
  cases ha : reg.armed with
  | none => simp [Registration.isHome, ha]
  | some a =>
    rw [armedFor?] at same
    cases hn : nearestDirectory? t reg.directory with
    | none => simp [ha, hn, sameArmed] at same
    | some spelled =>
      simp only [ha, hn, Option.map_some, sameArmed, Armed.same, Bool.and_eq_true,
        Path.same_iff] at same
      have above := nearestDirectory?_above gone hn
      simp only [Registration.isHome, ha, Option.any_some, Path.same, decide_eq_false_iff_not,
        same.1]
      exact above

end Registry

/-! ### Directories that vanish -/

namespace Tenure

open Registry

/-- An event moves registrations if one of them is away from home, or if it removes a directory at
which one is armed. -/
theorem Reached.mayMove {refuses : Nat → Path → Option String} {s : Tenure}
    (h : Reached refuses s) {event : FileEvent}
    (noticed : (∃ reg ∈ s.registry.registrations, reg.isHome = false) ∨
      event.kind.isRemoval = true ∧ ∃ p ∈ event.paths, ∃ reg ∈ s.registry.registrations,
        reg.armed.any (·.key.same p) = true) : s.registry.mayMove event = true := by
  unfold Registry.mayMove
  rcases noticed with ⟨reg, hr, away⟩ | ⟨removal, p, hp, reg, hr, armed⟩
  · have : (s.registry.registrations.any fun reg => !reg.isHome) = true :=
      List.any_eq_true.2 ⟨reg, hr, by simp [away]⟩
    simp [this]
  · obtain ⟨a, ha, same⟩ := (Option.any_eq_true _ _).1 armed
    obtain ⟨q, hq, he⟩ := isWatched_iff.1
      (h.good.exact.counts.watched a.key (mem_armedKeys.2 ⟨reg, hr, a, ha, rfl⟩))
    have : event.paths.any s.registry.isWatched = true :=
      List.any_eq_true.2 ⟨p, hp, isWatched_iff.2 ⟨q, hq, he.trans (Path.same_iff.1 same)⟩⟩
    simp [removal, this]

variable {refuses : Nat → Path → Option String} {s : Tenure}

/-- If the system refuses nothing, an event that may move registrations settles them. -/
theorem Reached.settled (h : Reached refuses s) {t : Tree} {event : FileEvent} {order : List Nat}
    (ho : order.Perm (s.registry.registrations.map (·.id)))
    (granted : (s.registry.routeIn t event order).warnings = [])
    (relevant : event.kind.isRelevant = true) (may : s.registry.mayMove event = true) :
    (s.route t event order).registry.registrations = s.registry.registrations.map (settle t) ∧
      Settled t (s.route t event order).registry := by
  have distinct := h.good.exact.distinct
  have round : s.registry.routeIn t event order =
      ⟨event.paths.flatMap s.registry.hits ++ (s.registry.rearmIn t order).fired,
        (s.registry.rearmIn t order).warnings, (s.registry.rearmIn t order).registry⟩ := by
    simp [Registry.routeIn, relevant, may]
  rw [round] at granted
  rw [Tenure.route, round]
  refine ⟨(rearmIn_granted distinct granted).trans (List.map_congr_left fun reg hr => ?_),
    settled_rearmIn distinct ho granted⟩
  exact if_pos (ho.mem_iff.2 (List.mem_map_of_mem hr))

/-- From a settled state, a registration whose directory comes back fires once. -/
theorem Reached.fires_once (h : Reached refuses s) {t t' : Tree} (settled : Settled t s.registry)
    {event : FileEvent} {order : List Nat}
    (ho : order.Perm (s.registry.registrations.map (·.id)))
    (granted : (s.registry.routeIn t' event order).warnings = [])
    (relevant : event.kind.isRelevant = true) {reg : Registration}
    (hr : reg ∈ s.registry.registrations) (gone : t.isDirectory reg.directory = false)
    (back : t'.isDirectory reg.directory = true) :
    ((firings event s.registry (s.route t' event order).registry).map (·.id)).count reg.id = 1 := by
  have away := settled.away hr gone
  obtain ⟨moved, settled'⟩ := h.settled ho granted relevant (h.mayMove (.inl ⟨reg, hr, away⟩))
  have hr' : settle t' reg ∈ (s.route t' event order).registry.registrations := by
    rw [moved]
    exact List.mem_map_of_mem hr
  have home : (settle t' reg).isHome = true := settled'.home hr' (by rwa [settle_directory])
  have unnamed : (event.paths.countP fun p => reg ∈ s.registry.hitters p) = 0 := by
    refine List.countP_eq_zero.2 fun p _ hp => ?_
    exact Bool.false_ne_true (away.symm.trans (isHome_of_mem_hitters (of_decide_eq_true hp)).2)
  rw [count_firings event h.good.exact.distinct
    (h.step (.route t' event order ho)).good.exact.distinct hr hr' (settle_id t' reg) home, unnamed,
    away]
  rfl

/-- After an event that is noticed, and in which the system refuses nothing, every registration is
at the nearest directory that exists. When a directory that is gone comes back, the next event
fires each registration for a file in it exactly once. An event is noticed if it removes a directory
at which some registration is armed; any other one only if some registration is away from home. -/
theorem vanished_followed (h : Reached refuses s) {t : Tree} {event : FileEvent} {order : List Nat}
    (ho : order.Perm (s.registry.registrations.map (·.id)))
    (granted : (s.registry.routeIn t event order).warnings = [])
    (relevant : event.kind.isRelevant = true)
    (noticed : (∃ reg ∈ s.registry.registrations, reg.isHome = false) ∨
      event.kind.isRemoval = true ∧ ∃ p ∈ event.paths, ∃ reg ∈ s.registry.registrations,
        reg.armed.any (·.key.same p) = true) :
    Settled t (s.route t event order).registry ∧
    ∀ (t' : Tree) (next : FileEvent) (order' : List Nat), next.kind.isRelevant = true →
      order'.Perm ((s.route t event order).registry.registrations.map (·.id)) →
      ((s.route t event order).registry.routeIn t' next order').warnings = [] →
      ((s.route t event order).registry.routeIn t' next order').routes.Perm
        ((firings next (s.route t event order).registry
          ((s.route t event order).route t' next order').registry).map (·.route)) ∧
      ∀ reg ∈ (s.route t event order).registry.registrations,
        t.isDirectory reg.directory = false → t'.isDirectory reg.directory = true →
          ((firings next (s.route t event order).registry
            ((s.route t event order).route t' next order').registry).map (·.id)).count reg.id =
              1 := by
  have reached : Reached refuses (s.route t event order) := h.step (.route t event order ho)
  have settled := (h.settled ho granted relevant (h.mayMove noticed)).2
  refine ⟨settled, fun t' next order' relevant' ho' granted' => ⟨?_, fun reg hr gone back => ?_⟩⟩
  · exact routes_routeIn t' _ (ho'.nodup_iff.2 reached.good.exact.distinct) relevant'
  · exact reached.fires_once settled ho' granted' relevant' hr gone back

/-! ### A directory that is renamed -/

/-- The tree while the directory is there. -/
def built : Tree := ⟨[], [(["w".toList], .directory), (["w".toList, "b".toList], .directory)]⟩

/-- The tree without it. -/
def unbuilt : Tree := ⟨[], [(["w".toList], .directory)]⟩

/-- One file is watched in the directory. -/
def lone : Tenure := (start fun _ _ => none).watch built ⟨"/w/b/m.su"⟩ .location

def removal : FileEvent := ⟨.removeFolder, [⟨"/w/b"⟩]⟩

def renamedAway : FileEvent := ⟨.modifyName, [⟨"/w/b"⟩]⟩

def creation : FileEvent := ⟨.createFolder, [⟨"/w/b"⟩]⟩

theorem vanished_followed_lone :
    Settled unbuilt (lone.route unbuilt removal [1]).registry ∧
      ((lone.route unbuilt removal [1]).registry.routeIn built creation [1]).routes = [.location] := by
  have reached : Reached (fun _ _ => none) lone := Reached.start.step (.watch _ _ _)
  have order : [1].Perm (lone.registry.registrations.map (·.id)) := by decide +kernel
  have granted : (lone.registry.routeIn unbuilt removal [1]).warnings = [] := by decide +kernel
  obtain ⟨settled, fires⟩ := vanished_followed reached order granted rfl
    (.inr ⟨rfl, by decide +kernel⟩)
  obtain ⟨routes, -⟩ := fires built creation [1] rfl (by decide +kernel) (by decide +kernel)
  refine ⟨settled, List.perm_singleton.1 (routes.trans (.of_eq ?_))⟩
  decide +kernel

/-- A directory that is renamed away while every registration is at home is not noticed: the
registration stays where nothing is, and does not fire when the directory is back. -/
theorem renamed_unfollowed :
    Settled built lone.registry ∧ ¬ Settled unbuilt (lone.route unbuilt renamedAway [1]).registry ∧
      ((lone.route unbuilt renamedAway [1]).registry.routeIn built creation [1]).routes = [] := by
  decide +kernel

end Tenure

end StackUsage

import StackUsage.Proofs.Watch.Rearm

/-! Which registrations fire when they move. A round of arming changes nothing of a registration but
its place, which becomes the one where it belongs, or none. A registration that has come to its own
directory from elsewhere fires. One that was at home and is at home again fires only as often as the
event names it, also when its directory is another real directory now, because a link on the way was
switched. From then on it is armed there, but what its file says at that moment goes unnoticed. -/

namespace StackUsage

namespace Registry

/-! ### What a round makes of a registration -/

/-- Only the place of a registration changes, to the one where it belongs on the tree or to none. -/
structure Moves (t : Tree) (reg reg' : Registration) : Prop where
  same : reg' = { reg with armed := reg'.armed }
  place : reg'.armed = reg.armed ∨ reg'.armed = none ∨ reg'.armed = armedFor? t reg.directory

namespace Moves

variable {t : Tree} {a b c : Registration}

theorem refl (a : Registration) : Moves t a a := ⟨rfl, .inl rfl⟩

theorem directory (h : Moves t a b) : b.directory = a.directory := by rw [h.same]

theorem trans (h : Moves t a b) (h' : Moves t b c) : Moves t a c where
  same := by
    rw [h'.same, h.same]
  place := by
    rcases h'.place with stays | rest
    · rw [stays]
      exact h.place
    · rw [h.directory] at rest
      exact .inr rest

end Moves

/-- A registration of the first registry has become each one of the second. -/
def Moved (t : Tree) (before after : Registry) : Prop :=
  ∀ reg' ∈ after.registrations, ∃ reg ∈ before.registrations, Moves t reg reg'

theorem Moved.refl (t : Tree) (r : Registry) : Moved t r r := fun reg hr => ⟨reg, hr, .refl reg⟩

theorem Moved.trans {t : Tree} {r s u : Registry} (h : Moved t r s) (h' : Moved t s u) :
    Moved t r u := by
  intro last hl
  obtain ⟨middle, hm, second⟩ := h' last hl
  obtain ⟨reg, hr, first⟩ := h middle hm
  exact ⟨reg, hr, first.trans second⟩

theorem moved_setArmed {t : Tree} {r s : Registry}
    (distinct : (r.registrations.map (·.id)).Nodup) {reg : Registration}
    (hr : reg ∈ r.registrations) (roll : s.registrations = r.registrations) {place : Option Armed}
    (proper : place = none ∨ place = armedFor? t reg.directory) :
    Moved t r (s.setArmed reg.id place) := by
  intro reg' hr'
  obtain ⟨old, ho, rfl⟩ := List.mem_map.1 hr'
  rw [roll] at ho
  refine ⟨old, ho, ?_⟩
  split
  · next he =>
    cases List.inj_on_of_nodup_map distinct ho hr he
    exact ⟨rfl, .inr proper⟩
  · exact .refl old

theorem moved_arm (t : Tree) {r : Registry} (distinct : (r.registrations.map (·.id)).Nodup)
    (id : Nat) : Moved t r (r.arm t id).1 := by
  unfold arm
  cases hf : r.registrations.find? (·.id = id) with
  | none => exact .refl t r
  | some reg =>
    have hr := List.mem_of_find?_eq_some hf
    dsimp only
    split
    · exact .refl t r
    · obtain ⟨-, he⟩ | ⟨a, next, -, hq, he⟩ | ⟨a, next, text, -, hq, he⟩ :=
        moveTo_cases r reg (armedFor? t reg.directory)
      · rw [he]
        exact moved_setArmed distinct hr (registrations_leave r reg) (.inl rfl)
      · rw [he]
        exact moved_setArmed distinct hr (registrations_moved hq) (.inr rfl)
      · rw [he]
        exact moved_setArmed distinct hr (registrations_moved hq) (.inl rfl)

theorem moved_rearmIn (t : Tree) {r : Registry} (distinct : (r.registrations.map (·.id)).Nodup)
    (order : List Nat) : Moved t r (r.rearmIn t order).registry := by
  refine (rearmIn_induct (P := fun s => (s.registrations.map (·.id)).Nodup ∧ Moved t r s) t
    (fun s id hs => ⟨?_, hs.2.trans (moved_arm t hs.1 id)⟩) order ⟨distinct, .refl t r⟩).2
  rw [(sameRoll_arm t s id).ids]
  exact hs.1

theorem moved_routeIn (t : Tree) (event : FileEvent) (order : List Nat) {r : Registry}
    (distinct : (r.registrations.map (·.id)).Nodup) :
    Moved t r (r.routeIn t event order).service := by
  unfold routeIn
  split
  · exact .refl t r
  · split
    · exact moved_rearmIn t distinct order
    · exact .refl t r

/-- A registration that belongs at home belongs at the real path of its directory. -/
theorem armedFor?_of_home {t : Tree} {reg : Registration}
    (belongs : reg.armed = armedFor? t reg.directory) (home : reg.isHome = true) :
    reg.armed = some ⟨reg.directory, t.realPath reg.directory⟩ := by
  obtain ⟨a, ha, spelled⟩ := (Option.any_eq_true _ _).1 home
  rw [ha, armedFor?, eq_comm, Option.map_eq_some_iff] at belongs
  obtain ⟨nearest, hn, rfl⟩ := belongs
  cases there : t.isDirectory reg.directory with
  | true =>
    rw [nearestDirectory?_self there, Option.some.injEq] at hn
    rw [ha, hn]
  | false => exact absurd (Path.same_iff.1 spelled) (nearestDirectory?_above there hn)

/-- A registration that is at home at another place than before is at the one where it belongs. -/
theorem Moves.armed_of_home {t : Tree} {reg reg' : Registration} (h : Moves t reg reg')
    (home : reg'.isHome = true) (moved : reg'.armed ≠ reg.armed) :
    reg'.armed = some ⟨reg.directory, t.realPath reg.directory⟩ := by
  rcases h.place with stays | none | belongs
  · exact absurd stays moved
  · rw [Registration.isHome, none] at home
    cases home
  · rw [← h.directory] at belongs ⊢
    exact armedFor?_of_home belongs home

/-- Whether it is named or has arrived, a registration fires with its own route. -/
theorem route_of_mem_firings {t : Tree} {before after : Registry} {event : FileEvent}
    (distinct : (before.registrations.map (·.id)).Nodup)
    (distinct' : (after.registrations.map (·.id)).Nodup) {reg reg' fired : Registration}
    (hr : reg ∈ before.registrations) (hr' : reg' ∈ after.registrations) (h : Moves t reg reg')
    (hf : fired ∈ firings event before after) (he : fired.id = reg.id) :
    fired.route = reg.route := by
  rcases List.mem_append.1 hf with named | arrived
  · obtain ⟨p, -, hp⟩ := List.mem_flatMap.1 named
    rw [List.inj_on_of_nodup_map distinct (isHome_of_mem_hitters hp).1 hr he]
  · have same : reg'.id = reg.id := by rw [h.same]
    rw [List.inj_on_of_nodup_map distinct' (List.mem_filter.1 arrived).1 hr' (he.trans same.symm),
      h.same]

end Registry

namespace Tenure

open Registry

variable {refuses : Nat → Path → Option String} {s : Tenure}

/-- A registration that comes home fires, and one that was at home fires just if it is named.
Any registration that is at home after an event fires once for each path of the event that names it,
and once more if it was away before, be it armed further up or nowhere. If its place has changed, it
is armed at the real path that its directory has now, whether it fires or not. -/
theorem arrival_fires (h : Reached refuses s) (t : Tree) {event : FileEvent} {order : List Nat}
    (ho : order.Perm (s.registry.registrations.map (·.id)))
    (relevant : event.kind.isRelevant = true) {reg reg' : Registration}
    (hr : reg ∈ s.registry.registrations)
    (hr' : reg' ∈ (s.route t event order).registry.registrations) (same : reg'.id = reg.id)
    (home : reg'.isHome = true) :
    (s.registry.routeIn t event order).routes.Perm
      ((firings event s.registry (s.route t event order).registry).map (·.route)) ∧
    ((firings event s.registry (s.route t event order).registry).map (·.id)).count reg.id =
      (event.paths.countP fun p => reg ∈ s.registry.hitters p) + (if reg.isHome then 0 else 1) ∧
    (reg.isHome = false ∨ (∃ p ∈ event.paths, reg ∈ s.registry.hitters p) →
      reg'.route = reg.route ∧ reg.route ∈ (s.registry.routeIn t event order).routes) ∧
    (reg'.armed ≠ reg.armed →
      reg'.armed = some ⟨reg.directory, t.realPath reg.directory⟩) := by
  have distinct := h.good.exact.distinct
  have distinct' := (h.step (.route t event order ho)).good.exact.distinct
  have routes := routes_routeIn t s.registry (ho.nodup_iff.2 distinct) relevant
  have often := count_firings event distinct distinct' hr hr' same home
  obtain ⟨old, hold, moves⟩ := moved_routeIn t event order distinct reg' hr'
  have own : old = reg := by
    refine List.inj_on_of_nodup_map distinct hold hr ?_
    rw [← same, moves.same]
  subst own
  refine ⟨routes, often, fun stirred => ⟨by rw [moves.same], ?_⟩, moves.armed_of_home home⟩
  -- The number of firings is positive, so one of them has this number, and its route.
  have fires : 0 < ((firings event s.registry (s.route t event order).registry).map
      (·.id)).count old.id := by
    rw [often]
    rcases stirred with away | ⟨p, hp, hit⟩
    · simp [away]
    · exact Nat.add_pos_left (List.countP_pos_iff.2 ⟨p, hp, by simpa using hit⟩) _
  obtain ⟨fired, hf, he⟩ := List.mem_map.1 (List.count_pos_iff.1 fires)
  exact routes.mem_iff.2
    (List.mem_map.2 ⟨fired, hf, route_of_mem_firings distinct distinct' hr hr' moves hf he⟩)

/-! ### A link that is switched -/

/-- Some directories, and a link to one of them. -/
def pointing (target : String) (rooms : List String) : Tree where
  workdir := []
  nodes := (["w".toList], .directory) :: (["w".toList, "l".toList], .link ⟨target⟩) ::
    rooms.map fun room => (["w".toList, room.toList], .directory)

/-- One file is watched behind the link, and one in a directory that is not there. -/
def relayed : Tenure :=
  ((start fun _ _ => none).watch (pointing "a" ["a", "b"]) ⟨"/w/l/m.su"⟩ .location).watch
    (pointing "a" ["a", "b"]) ⟨"/w/n/m.su"⟩ (.target 7)

theorem reached_relayed : Reached (fun _ _ => none) relayed :=
  (Reached.start.step (.watch _ _ _)).step (.watch _ _ _)

def addition : FileEvent := ⟨.createFolder, [⟨"/w/n"⟩]⟩

def switch : FileEvent := ⟨.modifyName, [⟨"/w/l"⟩]⟩

theorem arrival_fires_relayed :
    ∃ reg ∈ relayed.registry.registrations,
      ∃ reg' ∈ (relayed.route (pointing "a" ["a", "b", "n"]) addition [2, 1]).registry.registrations,
        reg'.id = reg.id ∧ reg'.isHome = true ∧ reg.isHome = false ∧
          reg.route ∈
            (relayed.registry.routeIn (pointing "a" ["a", "b", "n"]) addition [2, 1]).routes := by
  obtain ⟨reg, hr, reg', hr', same, home, away⟩ :
      ∃ reg ∈ relayed.registry.registrations,
        ∃ reg' ∈
          (relayed.route (pointing "a" ["a", "b", "n"]) addition [2, 1]).registry.registrations,
          reg'.id = reg.id ∧ reg'.isHome = true ∧ reg.isHome = false := by decide +kernel
  have order : [2, 1].Perm (relayed.registry.registrations.map (·.id)) := by decide +kernel
  obtain ⟨-, -, fires, -⟩ := arrival_fires reached_relayed (pointing "a" ["a", "b", "n"]) order rfl
    hr hr' same home
  exact ⟨reg, hr, reg', hr', same, home, away, (fires (.inl away)).2⟩

/-- A link is switched while another registration is away from home. The registration behind the
link moves to the other real directory, and nothing fires. -/
theorem switched_silent : Reached (fun _ _ => none) relayed ∧ switch.kind.isRelevant = true ∧
    [1, 2].Perm (relayed.registry.registrations.map (·.id)) ∧
    (∃ reg ∈ relayed.registry.registrations,
      ∃ reg' ∈ (relayed.route (pointing "b" ["a", "b"]) switch [1, 2]).registry.registrations,
        reg'.id = reg.id ∧ reg'.isHome = true ∧ reg.armed = some ⟨⟨"/w/l"⟩, ⟨"/w/a"⟩⟩ ∧
          reg'.armed = some ⟨⟨"/w/l"⟩, ⟨"/w/b"⟩⟩) ∧
    (relayed.registry.routeIn (pointing "b" ["a", "b"]) switch [1, 2]).routes = [] :=
  ⟨reached_relayed, rfl, by decide +kernel, by decide +kernel, by decide +kernel⟩

end Tenure

end StackUsage

import StackUsage.Proofs.Controller.Attach
import StackUsage.Proofs.Index

/-! What a controller holds. Each handle stands for one live watch: on the manifest's location, on
the real manifest that was found, and on the report of each unit that was granted one. The index has
entries for exactly these units, except that an entry may be missing for a unit whose route waits in
the queue. Tearing down a tier keeps this, since the routes of the tier become old with it. -/

namespace StackUsage.Controller

open WatchService (Lawful Holding)

variable {σ : Type}

/-! ### What a controller holds -/

def locationPart (c : Controller σ) : List LiveWatch :=
  c.locationWatch.current.toList.map fun h => ⟨h.id, c.location, .location⟩

def targetPart (c : Controller σ) : List LiveWatch :=
  List.zipWith (fun h path => ⟨h.id, path, .target c.targetGeneration⟩)
    c.targetWatch.current.toList c.target.toList

/-- The watches of all handles, if the report handles were granted for the given units. -/
def own (held : List (Handle × ReportUnit)) (c : Controller σ) : List LiveWatch :=
  c.locationPart ++ (c.targetPart ++ reportPart c.reportGeneration held)

theorem ids_locationPart (c : Controller σ) :
    c.locationWatch.current.toList.map (·.id) = c.locationPart.map (·.id) := by
  simp [locationPart]

theorem ids_targetPart {c : Controller σ}
    (h : c.targetWatch.isSet = true → c.target.isSome = true) :
    c.targetWatch.current.toList.map (·.id) = c.targetPart.map (·.id) := by
  cases hw : c.targetWatch.current with
  | none => simp [targetPart, hw]
  | some handle =>
    obtain ⟨path, hp⟩ := Option.isSome_iff_exists.1 (h (by simp [Slot.isSet, hw]))
    simp [targetPart, hw, hp]

theorem route_of_mem_targetPart {c : Controller σ} {w : LiveWatch} (h : w ∈ c.targetPart) :
    w.route = .target c.targetGeneration := by
  unfold targetPart at h
  cases hw : c.targetWatch.current with
  | none => simp [hw] at h
  | some handle =>
    cases hp : c.target with
    | none => simp [hp] at h
    | some path =>
      simp only [hw, hp, Option.toList_some, List.zipWith_cons_cons, List.zipWith_nil_left,
        List.mem_singleton] at h
      rw [h]

/-- A report route of the current generation is that of a unit whose report is watched; there are
none of later generations. -/
def Accounted (held : List (Handle × ReportUnit)) (generation : Nat) : Route → Prop
  | .report g unit => g ≤ generation ∧ (g = generation → ∃ x ∈ held, x.2 = unit)
  | _ => True

/-- Tearing the reports down makes every route that was accounted for old. -/
theorem Accounted.drop {held held' : List (Handle × ReportUnit)} {generation : Nat} {route : Route}
    (h : Accounted held generation route) : Accounted held' (generation + 1) route := by
  cases route with
  | report g unit => exact ⟨Nat.le_succ_of_le h.1, fun he => absurd h.1 (by omega)⟩
  | _ => trivial

theorem accounted_own {held : List (Handle × ReportUnit)} {c : Controller σ} {w : LiveWatch}
    (h : w ∈ c.own held) : Accounted held c.reportGeneration w.route := by
  rw [own, List.mem_append, List.mem_append] at h
  rcases h with h | h | h
  · obtain ⟨handle, -, rfl⟩ := List.mem_map.1 h
    trivial
  · rw [route_of_mem_targetPart h]
    trivial
  · obtain ⟨x, hx, rfl⟩ := List.mem_map.1 h
    exact ⟨Nat.le_refl _, fun _ => ⟨x, hx, rfl⟩⟩

variable [WatchService σ] {sound : σ → Prop}

/-- What holds of a controller with a queue: the service has exactly the watches of its handles
beside those of others, and the entries of the index are those of the watched units, but for units
whose route is still in the queue. -/
structure Kept (sound : σ → Prop) (others : List LiveWatch) (queue : List Route)
    (held : List (Handle × ReportUnit)) (c : Controller σ) : Prop where
  holding : Holding sound others (c.own held) c.service
  reports : c.reportWatches.items = held.map (·.1)
  alive_location : ∀ h ∈ c.locationWatch.current.toList, h.live = true
  alive_target : ∀ h ∈ c.targetWatch.current.toList, h.live = true
  alive_reports : ∀ h ∈ c.reportWatches.items, h.live = true
  placed : c.targetWatch.isSet = true → c.target.isSome = true
  location_iff : c.locationWatch.isSet = true ↔ c.Issued .location
  keys : ∀ key ∈ c.index.keys, ∃ x ∈ held, x.2.sourceKey = key
  covered : ∀ x ∈ held, x.2.sourceKey ∈ c.index.keys ∨ .report c.reportGeneration x.2 ∈ queue
  issued : ∀ route, c.Issued route → Accounted held c.reportGeneration route
  queued : ∀ route ∈ queue, Accounted held c.reportGeneration route

namespace Kept

variable {others : List LiveWatch} {queue rest : List Route} {held : List (Handle × ReportUnit)}
  {c : Controller σ}

/-! ### Steps that keep every handle -/

/-- The service moves to a state with the same watches, and no grant is written down. -/
theorem heard (h : Kept sound others queue held c) {s : σ} {notices : List Notice}
    (hs : Holding sound others (c.own held) s) (hn : Quiet notices) :
    Kept sound others queue held (c.heard s notices) :=
  { h with
    holding := hs
    location_iff := h.location_iff.trans (issued_iff_of_quiet rfl hn _).symm
    issued := fun route hr => h.issued route ((issued_iff_of_quiet rfl hn route).1 hr) }

theorem note (h : Kept sound others queue held c) {notices : List Notice} (hn : Quiet notices) :
    Kept sound others queue held (c.note notices) := h.heard h.holding hn

theorem warn (h : Kept sound others queue held c) (warnings : List Warning) :
    Kept sound others queue held (c.warn warnings) := h.note (quiet_warned warnings)

theorem refused {c' : Controller σ} (h : Kept sound others queue held c)
    (hg : Granted sound others (c.own held) [] c c') : Kept sound others queue held c' := by
  obtain ⟨s, notices, rfl⟩ := hg.heard
  have holding := hg.holding
  rw [List.append_nil] at holding
  exact
    { h with
      holding
      location_iff := h.location_iff.trans ((hg.issued .location).trans (by simp)).symm
      issued := fun route hr => h.issued route (by simpa using (hg.issued route).1 hr) }

theorem withPending (h : Kept sound others queue held c) (routes : List Route) :
    Kept sound others queue held (c.withPending routes) := { h with }

/-- Routes that are accounted for may join the queue. -/
theorem append (h : Kept sound others queue held c) {routes : List Route}
    (hr : ∀ route ∈ routes, Accounted held c.reportGeneration route) :
    Kept sound others (queue ++ routes) held c :=
  { h with
    covered := fun x hx => (h.covered x hx).imp_right (List.mem_append_left routes)
    queued := fun route hq => (List.mem_append.1 hq).elim (h.queued route) (hr route) }

/-- A route that is not for a watched unit may leave the queue. -/
theorem pop {route : Route} (h : Kept sound others (route :: rest) held c)
    (hr : ∀ unit, route ≠ .report c.reportGeneration unit) : Kept sound others rest held c :=
  { h with
    covered := by
      intro x hx
      refine (h.covered x hx).imp_right fun hq => ?_
      exact (List.mem_cons.1 hq).resolve_left fun he => hr x.2 he.symm
    queued := fun q hq => h.queued q (List.mem_cons_of_mem _ hq) }

/-! ### Tearing down -/

/-- Without a watch on the real manifest it does not matter which one was found. -/
theorem retarget (h : Kept sound others queue held c) (hs : c.targetWatch = .empty)
    (target : Option Path) : Kept sound others queue held { c with target } :=
  { h with
    holding := by
      have hp : targetPart { c with target } = c.targetPart := by
        simp [targetPart, hs, Slot.empty]
      rw [own, hp]
      exact h.holding
    placed := by
      intro hw
      cases (congrArg Slot.isSet hs).symm.trans hw }

theorem dropTarget (law : Lawful σ sound) (h : Kept sound others queue held c) :
    Kept sound others queue held c.dropTarget := by
  have holding : Holding sound others
      (c.targetPart ++ (c.locationPart ++ reportPart c.reportGeneration held)) c.service := by
    refine h.holding.perm ?_
    rw [own, ← List.append_assoc, ← List.append_assoc]
    exact List.perm_append_comm.append_right _
  rw [dropTarget_eq]
  exact
    { h with
      holding := holding_released law holding h.alive_target (ids_targetPart h.placed)
      alive_target := fun _ hx => absurd hx List.not_mem_nil
      placed := by
        intro hw
        cases hw
      location_iff := h.location_iff.trans (issued_iff_of_quiet rfl (quiet_released _) _).symm
      issued := fun route hr =>
        h.issued route ((issued_iff_of_quiet rfl (quiet_released _) route).1 hr) }

theorem ids_reportPart (h : Kept sound others queue held c) :
    c.reportWatches.items.map (·.id) = (reportPart c.reportGeneration held).map (·.id) := by
  simp [h.reports, reportPart]

/-- Giving up the reports and clearing the index leaves no unit. -/
theorem forget (law : Lawful σ sound) (h : Kept sound others queue held c) :
    Kept sound others queue [] c.dropReports.clearIndex := by
  have holding : Holding sound others
      (reportPart c.reportGeneration held ++ (c.locationPart ++ (c.targetPart ++ [])))
      c.service := by
    refine h.holding.perm ?_
    rw [own, List.append_nil, ← List.append_assoc]
    exact List.perm_append_comm
  have quiet : Quiet ((released c.reportWatches.items).map .released ++ [.cleared]) := by
    simp [Quiet]
  have same : ∀ route, c.dropReports.clearIndex.Issued route ↔ c.Issued route := by
    intro route
    refine issued_iff_of_quiet ?_ quiet route
    rw [dropReports_eq, ← List.append_assoc]
    rfl
  have renewed : ∀ route, c.dropReports.clearIndex.Issued route →
      Accounted [] (c.reportGeneration + 1) route :=
    fun route hr => (h.issued route ((same route).1 hr)).drop
  have requeued : ∀ route ∈ queue, Accounted [] (c.reportGeneration + 1) route :=
    fun route hq => (h.queued route hq).drop
  rw [dropReports_eq] at same renewed ⊢
  exact
    { h with
      holding := holding_released law holding h.alive_reports h.ids_reportPart
      reports := rfl
      alive_reports := fun _ hx => absurd hx List.not_mem_nil
      location_iff := h.location_iff.trans (same .location).symm
      keys := fun _ hk => absurd hk List.not_mem_nil
      covered := fun _ hx => absurd hx List.not_mem_nil
      issued := renewed
      queued := requeued }

theorem resetTiers (law : Lawful σ sound) (h : Kept sound others queue held c) :
    Kept sound others queue [] c.resetTiers := by
  refine ((h.dropTarget law).forget law).retarget ?_ none
  rw [dropReports_eq, dropTarget_eq]
  rfl

/-! ### New handles -/

/-- A new watch on the manifest's location takes the place of the one before it. -/
theorem setLocationWatch (law : Lawful σ sound) (h : Kept sound others queue held c) {id : Nat}
    {c₁ : Controller σ}
    (hg : Granted sound others (c.own held) [⟨id, c.location, .location⟩] c c₁) :
    Kept sound others queue held (c₁.setLocationWatch (c₁.locationWatch.set (.new id))) := by
  obtain ⟨s, notices, rfl⟩ := hg.heard
  have holding := hg.holding
  rw [own, List.append_assoc] at holding
  have same : ∀ route, ((c.heard s notices).setLocationWatch
      ((c.heard s notices).locationWatch.set (.new id))).Issued route ↔
        (c.heard s notices).Issued route := by
    refine issued_iff_of_quiet ?_ (quiet_released (released c.locationWatch.current.toList))
    rw [Controller.setLocationWatch, disposeAll_eq]
    rfl
  rw [Controller.setLocationWatch, disposeAll_eq] at same ⊢
  exact
    { h with
      holding :=
        (holding_released law holding h.alive_location (ids_locationPart c)).perm
          List.perm_append_comm
      alive_location := by
        intro x hx
        cases List.mem_singleton.1 hx
        rfl
      location_iff := by
        have hi := (hg.issued .location).2 (.inr ⟨_, List.mem_singleton_self _, rfl⟩)
        exact iff_of_true rfl ((same .location).2 hi)
      issued := by
        intro route hr
        rcases (hg.issued route).1 ((same route).1 hr) with hr | ⟨w, hw, rfl⟩
        · exact h.issued route hr
        · cases List.mem_singleton.1 hw
          trivial }

/-- A watch on the real manifest is held, and its route waits in the queue. -/
theorem holdTarget (h : Kept sound others queue held c) (hs : c.targetWatch = .empty) {id : Nat}
    {target : Path} {c₁ : Controller σ}
    (hg : Granted sound others (c.own held) [⟨id, target, .target c.targetGeneration⟩] c c₁) :
    Kept sound others (queue ++ [.target c.targetGeneration]) held
      (c₁.holdTarget target (.new id)) := by
  obtain ⟨s, notices, rfl⟩ := hg.heard
  have kept : Kept sound others (queue ++ [.target c.targetGeneration]) held c :=
    h.append (by simp [Accounted])
  have empty : (c.heard s notices).targetWatch.current.toList = [] :=
    congrArg (·.current.toList) hs
  rw [Controller.holdTarget, setTargetWatch, Slot.set, empty, disposeAll_nil]
  exact
    { kept with
      holding := by
        have hp : c.targetPart = [] := by simp [targetPart, hs, Slot.empty]
        have holding := hg.holding
        rw [own, hp, List.nil_append, List.append_assoc] at holding
        exact holding.perm (List.perm_append_comm.append_left _)
      alive_target := by
        intro x hx
        cases List.mem_singleton.1 hx
        rfl
      placed := fun _ => rfl
      location_iff := h.location_iff.trans ((hg.issued .location).trans (by simp)).symm
      issued := by
        intro route hr
        rcases (hg.issued route).1 hr with hr | ⟨w, hw, rfl⟩
        · exact h.issued route hr
        · cases List.mem_singleton.1 hw
          trivial }

/-- The watches of the reports are held, and their routes wait in the queue. The routes issued
before are of earlier generations, as no unit was left. -/
theorem holdReports (h : Kept sound others queue [] c) {c₁ : Controller σ}
    (hg : Granted sound others (c.own []) (reportPart c.reportGeneration held) c c₁)
    (alive : ∀ x ∈ held, x.1.live = true) :
    Kept sound others (queue ++ held.map fun x => .report c.reportGeneration x.2) held
      (c₁.holdReports (held.map (·.1))) := by
  obtain ⟨s, notices, rfl⟩ := hg.heard
  have empty : (c.heard s notices).reportWatches.items = [] := h.reports
  have old : ∀ {route}, Accounted [] c.reportGeneration route →
      Accounted held c.reportGeneration route := by
    intro route hr
    cases route with
    | report g unit => exact ⟨hr.1, fun he => by simpa using hr.2 he⟩
    | _ => trivial
  have new : ∀ x ∈ held, Accounted held c.reportGeneration (.report c.reportGeneration x.2) :=
    fun x hx => ⟨Nat.le_refl _, fun _ => ⟨x, hx, rfl⟩⟩
  rw [Controller.holdReports, setReportWatches, Batch.set, empty, disposeAll_nil]
  exact
    { holding := by
        have holding := hg.holding
        rw [own, reportPart, List.map_nil, List.append_nil, List.append_assoc] at holding
        exact holding
      reports := rfl
      alive_location := h.alive_location
      alive_target := h.alive_target
      alive_reports := by
        intro x hx
        obtain ⟨y, hy, rfl⟩ := List.mem_map.1 hx
        exact alive y hy
      placed := h.placed
      location_iff := by
        refine h.location_iff.trans ((hg.issued .location).trans (or_iff_left ?_)).symm
        rintro ⟨w, hw, hl⟩
        obtain ⟨x, -, rfl⟩ := List.mem_map.1 hw
        cases hl
      keys := fun key hk => by simpa using h.keys key hk
      covered := fun x hx => .inr (List.mem_append_right _ (List.mem_map_of_mem hx))
      issued := by
        intro route hr
        rcases (hg.issued route).1 hr with hr | ⟨w, hw, rfl⟩
        · exact old (h.issued route hr)
        · obtain ⟨x, hx, rfl⟩ := List.mem_map.1 hw
          exact new x hx
      queued := by
        intro route hq
        rcases List.mem_append.1 hq with hq | hq
        · exact old (h.queued route hq)
        · obtain ⟨x, hx, rfl⟩ := List.mem_map.1 hq
          exact new x hx }

end Kept

end StackUsage.Controller

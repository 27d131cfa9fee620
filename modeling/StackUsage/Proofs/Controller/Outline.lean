import StackUsage.Proofs.Controller.Scene
import StackUsage.Proofs.Controller.Writing

/-! What a pass on a still tree comes to, told from its queue before it begins. An outline keeps of
a controller what bears on the outcome, and a step of an outline is what serving one route does to
it. Three courses are possible. If the location waits in the queue and leads somewhere, all is
attached anew; else, if the real manifest waits, the reports are; else the waiting reports are taken
in one by one. Every step keeps the ending, the failure and the display that its outline foretells,
and the order of the queue makes no difference to them. -/

namespace StackUsage

/-! ### Outlines -/

/-- What of a controller bears on the outcome of a pass: the units are those of the watched reports,
and what is shown is for the paths of visible sources. -/
structure Outline where
  index : Index
  target : Option Path
  units : List ReportUnit
  targetGeneration : Nat
  reportGeneration : Nat
  renderAll : Bool
  shown : Path → List Decoration
  queue : List Route

/-- What a pass leaves behind. -/
structure Ending where
  index : Index
  target : Option Path
  units : List ReportUnit

/-- The unit of a report's route of this generation. -/
def Route.unitOf (generation : Nat) : Route → Option ReportUnit
  | .report g unit => if g = generation then some unit else none
  | _ => none

theorem Route.unit?_of_unitOf {generation : Nat} {route : Route} {unit : ReportUnit}
    (h : route.unitOf generation = some unit) : route.unit? = some unit := by
  cases route with
  | report g u => exact (Option.ite_none_right_eq_some.1 h).2
  | _ => cases h

theorem filterMap_unitOf_map (generation : Nat) (units : List ReportUnit) :
    (units.map (.report generation)).filterMap (Route.unitOf generation) = units := by
  rw [List.filterMap_map]
  exact (List.filterMap_congr fun unit _ => if_pos rfl).trans List.filterMap_some

/-- Routes of generations that had been reached are of none that comes later. -/
theorem filterMap_unitOf_due {target report later : Nat} {queue : List Route}
    (due : ∀ route ∈ queue, route.Due target report) (h : report < later) :
    queue.filterMap (Route.unitOf later) = [] := by
  rw [List.filterMap_eq_nil_iff]
  intro route hr
  have due := due route hr
  cases route with
  | report g unit =>
    have due : g ≤ report := due
    exact if_neg (by omega)
  | _ => rfl

namespace Outline

/-- The location waits and leads somewhere: all is attached anew. -/
def Relocates (s : Scene) (o : Outline) : Prop := .location ∈ o.queue ∧ s.manifest.isOk = true

/-- The real manifest waits: the reports are attached anew. -/
def Rebuilds (o : Outline) : Prop := .target o.targetGeneration ∈ o.queue

instance (s : Scene) (o : Outline) : Decidable (o.Relocates s) :=
  inferInstanceAs (Decidable (_ ∧ _))

instance (o : Outline) : Decidable o.Rebuilds := inferInstanceAs (Decidable (_ ∈ _))

/-- The units of current reports that wait. -/
def waiting (o : Outline) : List ReportUnit := o.queue.filterMap (Route.unitOf o.reportGeneration)

theorem waiting_cons {o : Outline} {unit : ReportUnit} {rest : List Route}
    (h : o.queue = .report o.reportGeneration unit :: rest) :
    o.waiting = unit :: rest.filterMap (Route.unitOf o.reportGeneration) := by
  rw [waiting, h]
  exact List.filterMap_cons_some (if_pos rfl)

/-- What attaching everything anew leaves behind. -/
def relocated (s : Scene) : Ending :=
  s.target?.elim ⟨.empty, none, []⟩ fun path => ⟨s.takeIn s.named .empty, some path, s.named⟩

theorem relocated_of_some {s : Scene} {path : Path} (h : s.target? = some path) :
    relocated s = ⟨s.takeIn s.named .empty, some path, s.named⟩ := by
  rw [relocated, h, Option.elim_some]

theorem relocated_of_none {s : Scene} (h : s.target? = none) :
    relocated s = ⟨.empty, none, []⟩ := by
  rw [relocated, h, Option.elim_none]

/-- What the pass will leave behind. Attaching everything anew makes good for whatever else waits,
and attaching the reports anew for the waiting reports. -/
def ending (s : Scene) (o : Outline) : Ending :=
  if o.Relocates s then relocated s
  else if o.Rebuilds then ⟨s.takeIn s.named .empty, o.target, s.named⟩
  else ⟨s.takeIn o.waiting o.index, o.target, o.units⟩

/-- The kind of the first failure to come. -/
def failing (s : Scene) (o : Outline) : Option Failure.Kind :=
  if .location ∈ o.queue then s.astray else if o.Rebuilds then s.lost else none

/-- Everything will be rendered, whatever the reports concern. -/
def Sweeps (s : Scene) (o : Outline) : Prop := o.renderAll = true ∨ o.Relocates s ∨ o.Rebuilds

/-- Whether a document will be sent something. -/
def Redraws (s : Scene) (o : Outline) (path : Path) : Prop :=
  o.Sweeps s ∨ o.waiting.any (s.touches o.index path) = true

instance (s : Scene) (o : Outline) : Decidable (o.Sweeps s) :=
  inferInstanceAs (Decidable (_ ∨ _ ∨ _))

instance (s : Scene) (o : Outline) (path : Path) : Decidable (o.Redraws s path) :=
  inferInstanceAs (Decidable (_ ∨ _))

/-- What a visible source will show. -/
def display (s : Scene) (o : Outline) (path : Path) : List Decoration :=
  if o.Redraws s path then s.drawn (o.ending s).index path else o.shown path

/-- The queue is of generations that have been reached, and reports that are rendered one by one
have source keys of their own. -/
structure Fit (s : Scene) (o : Outline) : Prop where
  due : ∀ route ∈ o.queue, route.Due o.targetGeneration o.reportGeneration
  apart : ¬ o.Sweeps s → Scene.Apart o.waiting

/-- Serving one route, with the kind of its failure. Resetting the tiers moves the generations on,
that of the real manifest twice if the watch on it was refused. -/
inductive Step (s : Scene) (o : Outline) : Option Failure.Kind → Outline → Prop
  | passed {route : Route} {rest : List Route} : o.queue = route :: rest →
    route ≠ .location → route ≠ .target o.targetGeneration →
    route.unitOf o.reportGeneration = none → Step s o none { o with queue := rest }
  | unresolved {rest : List Route} : o.queue = .location :: rest → s.manifest.isOk = false →
    Step s o s.astray { o with queue := rest }
  | moved {path : Path} {rest : List Route} : o.queue = .location :: rest →
    s.target? = some path →
      Step s o s.astray { o with
        target := some path
        targetGeneration := o.targetGeneration + 1
        queue := rest ++ [.target (o.targetGeneration + 1)] }
  | reset {target report : Nat} {rest : List Route} : o.queue = .location :: rest →
    s.manifest.isOk = true → s.target? = none → o.targetGeneration < target →
    o.reportGeneration < report →
      Step s o s.astray { o with
        index := .empty
        target := none
        units := []
        targetGeneration := target
        reportGeneration := report
        renderAll := true
        queue := rest }
  | rebuilt {rest : List Route} : o.queue = .target o.targetGeneration :: rest →
    Step s o s.lost { o with
      index := .empty
      units := s.named
      reportGeneration := o.reportGeneration + 1
      renderAll := true
      queue := rest ++ s.named.map (.report (o.reportGeneration + 1)) }
  | taken {unit : ReportUnit} {shown : Path → List Decoration} {rest : List Route} :
    o.queue = .report o.reportGeneration unit :: rest →
    (∀ path, s.Visible path → shown path =
      if o.renderAll = false ∧ s.touches o.index path unit = true then
        s.drawn (s.takeIn [unit] o.index) path
      else o.shown path) →
      Step s o none { o with
        index := s.takeIn [unit] o.index
        shown := shown
        queue := rest }

variable {s : Scene} {o o' : Outline} {failure : Option Failure.Kind}

/-! ### Steps keep the ending -/

theorem Step.due (h : Step s o failure o')
    (due : ∀ route ∈ o.queue, route.Due o.targetGeneration o.reportGeneration) :
    ∀ route ∈ o'.queue, route.Due o'.targetGeneration o'.reportGeneration := by
  cases h with
  | passed hq _ _ _ => exact fun r hr => due r (hq ▸ List.mem_cons_of_mem _ hr)
  | unresolved hq _ => exact fun r hr => due r (hq ▸ List.mem_cons_of_mem _ hr)
  | moved hq _ =>
    intro r hr
    rcases List.mem_append.1 hr with hr | hr
    · exact (due r (hq ▸ List.mem_cons_of_mem _ hr)).mono (Nat.le_succ _) (Nat.le_refl _)
    · rw [List.mem_singleton.1 hr]
      exact Nat.le_refl _
  | reset hq _ _ ht hg =>
    exact fun r hr => (due r (hq ▸ List.mem_cons_of_mem _ hr)).mono (Nat.le_of_lt ht)
      (Nat.le_of_lt hg)
  | rebuilt hq =>
    intro r hr
    rcases List.mem_append.1 hr with hr | hr
    · exact (due r (hq ▸ List.mem_cons_of_mem _ hr)).mono (Nat.le_refl _) (Nat.le_succ _)
    · obtain ⟨unit, -, rfl⟩ := List.mem_map.1 hr
      exact Nat.le_refl _
  | taken hq _ => exact fun r hr => due r (hq ▸ List.mem_cons_of_mem _ hr)

/-- A generation that comes later does not wait yet. -/
theorem not_mem_of_due {queue : List Route} {target report later : Nat}
    (due : ∀ route ∈ queue, route.Due target report) (h : target < later) :
    .target later ∉ queue := fun hm => absurd (due _ hm) (Nat.not_le_of_lt h)

/-- The ending is what each course would come to. -/
theorem ending_eq {e : Ending} (relocates : o.Relocates s → relocated s = e)
    (rebuilds : ¬ o.Relocates s → o.Rebuilds → ⟨s.takeIn s.named .empty, o.target, s.named⟩ = e)
    (neither : ¬ o.Relocates s → ¬ o.Rebuilds →
      ⟨s.takeIn o.waiting o.index, o.target, o.units⟩ = e) : o.ending s = e := by
  unfold ending
  split
  · next hl => exact relocates hl
  · next hl =>
    split
    · next hb => exact rebuilds hl hb
    · next hb => exact neither hl hb

theorem ending_of_relocates (h : o.Relocates s) : o.ending s = relocated s := if_pos h

theorem ending_of_rebuilds (h : ¬ o.Relocates s) (hb : o.Rebuilds) :
    o.ending s = ⟨s.takeIn s.named .empty, o.target, s.named⟩ := by rw [ending, if_neg h, if_pos hb]

/-- Two outlines of one course that agree on what the course does not settle end alike. -/
theorem ending_congr (hl : o'.Relocates s ↔ o.Relocates s) (hb : o'.Rebuilds ↔ o.Rebuilds)
    (ht : o'.target = o.target) (hu : o'.units = o.units)
    (hi : s.takeIn o'.waiting o'.index = s.takeIn o.waiting o.index) :
    o'.ending s = o.ending s := by
  unfold ending
  simp only [hl, hb, ht, hu, hi]

theorem Step.ending (h : Step s o failure o')
    (due : ∀ route ∈ o.queue, route.Due o.targetGeneration o.reportGeneration) :
    o'.ending s = o.ending s := by
  cases h with
  | passed hq hl ht hu =>
    refine ending_congr ?_ ?_ rfl rfl ?_
    · simp [Relocates, hq, Ne.symm hl]
    · simp [Rebuilds, hq, Ne.symm ht]
    · simp [waiting, hq, hu]
  | unresolved hq hm =>
    refine ending_congr ?_ ?_ rfl rfl ?_
    · simp [Relocates, hm]
    · simp [Rebuilds, hq]
    · rw [waiting, waiting, hq]
      rfl
  | @moved path rest hq ht =>
    have before : o.Relocates s := ⟨hq ▸ List.mem_cons_self, Scene.isOk_of_target? ht⟩
    rw [ending_of_relocates before]
    refine ending_eq (fun _ => rfl) (fun _ _ => ?_) (fun _ hb => absurd ?_ hb)
    · exact (relocated_of_some ht).symm
    · exact List.mem_append_right rest List.mem_cons_self
  | @reset target report rest hq hm ht hg hr =>
    have passed : ∀ route ∈ rest, route.Due o.targetGeneration o.reportGeneration :=
      fun r hr => due r (hq ▸ List.mem_cons_of_mem _ hr)
    have before : o.Relocates s := ⟨hq ▸ List.mem_cons_self, hm⟩
    rw [ending_of_relocates before]
    refine ending_eq (fun _ => rfl) (fun _ hb => absurd hb (not_mem_of_due passed hg))
      (fun _ _ => ?_)
    -- Every waiting report has become old, so nothing is taken in any more.
    rw [relocated_of_none ht, waiting, filterMap_unitOf_due passed hr]
    rfl
  | @rebuilt rest hq =>
    have passed : ∀ route ∈ rest, route.Due o.targetGeneration o.reportGeneration :=
      fun r hr => due r (hq ▸ List.mem_cons_of_mem _ hr)
    have before : o.Rebuilds := by simp [Rebuilds, hq]
    by_cases hl : o.Relocates s
    · rw [ending_of_relocates hl, ending_of_relocates]
      simpa [Relocates, hq] using hl
    · rw [ending_of_rebuilds hl before]
      refine ending_eq (fun hl' => absurd ?_ hl) (fun _ _ => rfl) (fun _ _ => ?_)
      · simpa [Relocates, hq] using hl'
      -- The reports that waited before have become old, and only the new ones count.
      · rw [waiting, List.filterMap_append, filterMap_unitOf_due passed (Nat.lt_succ_self _),
          filterMap_unitOf_map]
        rfl
  | taken hq hs =>
    refine ending_congr ?_ ?_ rfl rfl ?_
    · simp [Relocates, hq]
    · simp [Rebuilds, hq]
    · rw [waiting_cons hq, Scene.takeIn_cons]
      rfl

/-! ### Steps keep the failure -/

theorem failing_of_location (h : .location ∈ o.queue) : o.failing s = s.astray := if_pos h

theorem failing_of_not_location (h : .location ∉ o.queue) :
    o.failing s = if o.Rebuilds then s.lost else none := if_neg h

theorem failing_congr (hl : .location ∈ o'.queue ↔ .location ∈ o.queue)
    (hb : o'.Rebuilds ↔ o.Rebuilds) : o'.failing s = o.failing s := by
  unfold failing
  simp only [hl, hb]

/-- If the manifest can be found out about, only the location fails. -/
theorem failing_of_isOk (hm : s.manifest.isOk = true) :
    o.failing s = if .location ∈ o.queue then s.astray else none := by
  obtain ⟨manifest, he⟩ := Scene.isOk_iff.1 hm
  rw [failing, Scene.lost_of_ok he, ite_self]

/-- A step fails as its outline foretells, and what is to come fails no differently after it. -/
theorem Step.failing (h : Step s o failure o') : failure.or (o'.failing s) = o.failing s := by
  cases h with
  | passed hq hl ht _ =>
    rw [Option.none_or]
    refine failing_congr ?_ ?_
    · simp [hq, Ne.symm hl]
    · simp [Rebuilds, hq, Ne.symm ht]
  | unresolved hq hm =>
    rw [failing_of_location (o := o) (hq ▸ List.mem_cons_self)]
    obtain ⟨reason, he⟩ := Scene.isOk_eq_false_iff.1 hm
    rw [Scene.astray_of_error he, Option.some_or]
  | moved hq ht =>
    have none : s.astray = none := Scene.astray_of_target? ht
    rw [failing_of_location (o := o) (hq ▸ List.mem_cons_self),
      failing_of_isOk (Scene.isOk_of_target? ht), none, ite_self, Option.none_or]
  | reset hq hm ht _ _ =>
    rw [failing_of_location (o := o) (hq ▸ List.mem_cons_self), failing_of_isOk hm]
    split
    · exact Option.or_self
    · exact Option.or_none
  | @rebuilt rest hq =>
    have before : o.Rebuilds := by simp [Rebuilds, hq]
    have same : .location ∈ rest ++ s.named.map (.report (o.reportGeneration + 1)) ↔
        .location ∈ o.queue := by simp [hq]
    by_cases hl : .location ∈ o.queue
    · rw [failing_of_location hl, failing_of_location (same.2 hl), Scene.lost_or_astray]
    · rw [failing_of_not_location hl, failing_of_not_location (same.not.2 hl), if_pos before]
      split
      · exact Option.or_self
      · exact Option.or_none
  | taken hq _ =>
    rw [Option.none_or]
    refine failing_congr ?_ ?_
    · simp [hq]
    · simp [Rebuilds, hq]

/-! ### Steps keep the display -/

theorem display_of_redraws {path : Path} (h : o.Redraws s path) :
    o.display s path = s.drawn (o.ending s).index path := if_pos h

theorem display_of_not_redraws {path : Path} (h : ¬ o.Redraws s path) :
    o.display s path = o.shown path := if_neg h

theorem display_congr {path : Path} (he : o'.ending s = o.ending s)
    (hr : o'.Redraws s path ↔ o.Redraws s path) (hs : o'.shown path = o.shown path) :
    o'.display s path = o.display s path := by
  unfold display
  simp only [he, hr, hs]

theorem ending_of_not_sweeps (h : ¬ o.Sweeps s) :
    (o.ending s).index = s.takeIn o.waiting o.index := by
  obtain ⟨-, hl, hb⟩ : ¬ o.renderAll = true ∧ ¬ o.Relocates s ∧ ¬ o.Rebuilds := by
    simpa [Sweeps] using h
  rw [ending, if_neg hl, if_neg hb]

/-- Rendering the document when a report is taken in, if the report concerns it, and then when a
later one does comes to the same as rendering it once at the end. -/
theorem display_taken {unit : ReportUnit} {shown : Path → List Decoration} {rest : List Route}
    (fit : o.Fit s) (hq : o.queue = .report o.reportGeneration unit :: rest)
    (ho : o' = { o with index := s.takeIn [unit] o.index, shown := shown, queue := rest })
    (same : o'.ending s = o.ending s) {path : Path}
    (hs : shown path = if o.renderAll = false ∧ s.touches o.index path unit = true then
      s.drawn (s.takeIn [unit] o.index) path else o.shown path) :
    o'.display s path = o.display s path := by
  have sweeps : o'.Sweeps s ↔ o.Sweeps s := by
    rw [ho]
    simp [Sweeps, Relocates, Rebuilds, hq]
  by_cases hw : o.Sweeps s
  · rw [display_of_redraws (.inl (sweeps.2 hw)), display_of_redraws (.inl hw), same]
  · have hw' : ¬ o'.Sweeps s := mt sweeps.1 hw
    have off : o.renderAll = false := by simpa using fun h => hw (.inl h)
    have waiting : o.waiting = unit :: o'.waiting := by
      rw [waiting_cons hq, ho]
      rfl
    have apart : Scene.Apart (unit :: o'.waiting) := waiting ▸ fit.apart hw
    have index : o'.index = s.takeIn [unit] o.index := by rw [ho]
    have touched : (s.touches o.index path unit || o'.waiting.any (s.touches o'.index path)) =
        o.waiting.any (s.touches o.index path) := by
      rw [index, waiting]
      exact Scene.any_touches_cons apart
    cases hl : o'.waiting.any (s.touches o'.index path) with
    | true =>
      have before : o.Redraws s path := .inr (by rw [← touched, hl, Bool.or_true])
      rw [display_of_redraws (.inr hl), display_of_redraws before, same]
    | false =>
      have after : ¬ o'.Redraws s path := by simp [Redraws, hw', hl]
      have sent : o'.shown path = shown path := by rw [ho]
      rw [hl, Bool.or_false] at touched
      rw [display_of_not_redraws after, sent, hs]
      split
      · next hc =>
        have before : o.Redraws s path := .inr (touched ▸ hc.2)
        rw [display_of_redraws before, ← same, ending_of_not_sweeps hw',
          Scene.drawn_takeIn (apart.mono fun u hu => List.mem_cons_of_mem unit hu) hl, index]
      · next hc =>
        have before : ¬ o.Redraws s path := by
          simpa [Redraws, hw, ← touched, off] using hc
        rw [display_of_not_redraws before]

theorem Step.display (h : Step s o failure o') (fit : o.Fit s) {path : Path}
    (visible : s.Visible path) : o'.display s path = o.display s path := by
  have same : o'.ending s = o.ending s := h.ending fit.due
  cases h with
  | passed hq hl ht hu =>
    refine display_congr same (or_congr ?_ ?_) rfl
    · simp [Sweeps, Relocates, Rebuilds, hq, Ne.symm hl, Ne.symm ht]
    · simp [waiting, hq, hu]
  | unresolved hq hm =>
    refine display_congr same (or_congr ?_ ?_) rfl
    · simp [Sweeps, Relocates, Rebuilds, hq, hm]
    · simp [waiting, hq, Route.unitOf]
  | @moved _ rest hq ht =>
    have before : o.Relocates s := ⟨by simp [hq], Scene.isOk_of_target? ht⟩
    refine (display_of_redraws (.inl (.inr (.inr ?_)))).trans ?_
    · exact List.mem_append_right rest List.mem_cons_self
    · rw [display_of_redraws (.inl (.inr (.inl before))), same]
  | reset hq hm ht _ _ =>
    have before : o.Relocates s := ⟨by simp [hq], hm⟩
    rw [display_of_redraws (.inl (.inl rfl)), display_of_redraws (.inl (.inr (.inl before))), same]
  | rebuilt hq =>
    have before : o.Rebuilds := by simp [Rebuilds, hq]
    rw [display_of_redraws (.inl (.inl rfl)), display_of_redraws (.inl (.inr (.inr before))), same]
  | taken hq hs => exact display_taken fit hq rfl same (hs path visible)

theorem Step.fit (h : Step s o failure o') (fit : o.Fit s) : o'.Fit s := by
  refine ⟨h.due fit.due, fun hw => ?_⟩
  cases h with
  | passed hq hl ht hu =>
    have sweeps : ¬ o.Sweeps s := by
      simpa [Sweeps, Relocates, Rebuilds, hq, Ne.symm hl, Ne.symm ht] using hw
    exact (fit.apart sweeps).mono (by simp [waiting, hq, hu])
  | unresolved hq hm =>
    have sweeps : ¬ o.Sweeps s := by simpa [Sweeps, Relocates, Rebuilds, hq, hm] using hw
    exact (fit.apart sweeps).mono (by simp [waiting, hq, Route.unitOf])
  | @moved _ rest hq ht =>
    exact absurd (.inr (.inr (List.mem_append_right rest List.mem_cons_self))) hw
  | reset hq hm ht _ _ => exact absurd (.inl rfl) hw
  | rebuilt hq => exact absurd (.inl rfl) hw
  | taken hq hs =>
    have sweeps : ¬ o.Sweeps s := by simpa [Sweeps, Relocates, Rebuilds, hq] using hw
    refine (fit.apart sweeps).mono fun unit hu => ?_
    rw [waiting_cons hq]
    exact List.mem_cons_of_mem _ hu

/-! ### On the way -/

/-- From the first outline a pass has come to another one, with the first failure so far, and what
is foretold is still the same. -/
structure Leads (s : Scene) (o : Outline) (first : Option Failure.Kind) (o' : Outline) :
    Prop where
  fit : o'.Fit s
  ending : o'.ending s = o.ending s
  failing : first.or (o'.failing s) = o.failing s
  display : ∀ path, s.Visible path → o'.display s path = o.display s path

theorem Leads.refl (fit : o.Fit s) : Leads s o none o := ⟨fit, rfl, rfl, fun _ _ => rfl⟩

theorem Leads.step {first : Option Failure.Kind} {o'' : Outline} (h : Leads s o first o')
    (step : Step s o' failure o'') : Leads s o (first.or failure) o'' where
  fit := step.fit h.fit
  ending := (step.ending h.fit.due).trans h.ending
  failing := by rw [Option.or_assoc, step.failing, h.failing]
  display path visible := (step.display h.fit visible).trans (h.display path visible)

theorem ending_of_empty (h : o.queue = []) : o.ending s = ⟨o.index, o.target, o.units⟩ := by
  have hl : ¬ o.Relocates s := by simp [Relocates, h]
  have hb : ¬ o.Rebuilds := by simp [Rebuilds, h]
  rw [ending, if_neg hl, if_neg hb, waiting, h]
  rfl

theorem failing_of_empty (h : o.queue = []) : o.failing s = none := by
  simp [failing, Rebuilds, h]

theorem display_of_empty (h : o.queue = []) (path : Path) :
    o.display s path = if o.renderAll = true then s.drawn o.index path else o.shown path := by
  have redraws : o.Redraws s path ↔ o.renderAll = true := by
    simp [Redraws, Sweeps, Relocates, Rebuilds, waiting, h]
  rw [display, ending_of_empty h]
  simp only [redraws]

/-! ### The order of the queue -/

/-- The outline with another queue. -/
def withQueue (queue : List Route) (o : Outline) : Outline := { o with queue }

variable {queue : List Route}

theorem relocates_perm (h : o.queue.Perm queue) :
    (o.withQueue queue).Relocates s ↔ o.Relocates s :=
  and_congr_left fun _ => h.mem_iff.symm

theorem rebuilds_perm (h : o.queue.Perm queue) : (o.withQueue queue).Rebuilds ↔ o.Rebuilds :=
  h.mem_iff.symm

theorem waiting_perm (h : o.queue.Perm queue) : o.waiting.Perm (o.withQueue queue).waiting :=
  h.filterMap _

theorem failing_perm (h : o.queue.Perm queue) : (o.withQueue queue).failing s = o.failing s :=
  failing_congr h.mem_iff.symm (rebuilds_perm h)

/-- The order of the queue bears only on the order of the entries. -/
theorem ending_perm (h : o.queue.Perm queue) (apart : Scene.Apart o.waiting) :
    ((o.withQueue queue).ending s).target = (o.ending s).target ∧
      ((o.withQueue queue).ending s).units = (o.ending s).units ∧
      (o.ending s).index.Alike ((o.withQueue queue).ending s).index := by
  unfold ending
  simp only [relocates_perm h, rebuilds_perm h]
  split
  · exact ⟨rfl, rfl, .refl _⟩
  · split
    · exact ⟨rfl, rfl, .refl _⟩
    · exact ⟨rfl, rfl, Scene.takeIn_perm (waiting_perm h) apart _⟩

theorem redraws_perm (h : o.queue.Perm queue) {path : Path} :
    (o.withQueue queue).Redraws s path ↔ o.Redraws s path :=
  or_congr (or_congr Iff.rfl (or_congr (relocates_perm h) (rebuilds_perm h)))
    (by rw [(waiting_perm h).any_eq]; rfl)

/-- The order of the queue bears only on the order of the decorations. -/
theorem display_perm (h : o.queue.Perm queue) (apart : Scene.Apart o.waiting) {path : Path}
    (visible : s.Visible path) :
    (o.display s path).Perm ((o.withQueue queue).display s path) := by
  unfold display
  simp only [redraws_perm h]
  split
  · exact Scene.drawn_alike (ending_perm h apart).2.2 visible
  · exact .refl _

end Outline

end StackUsage

import StackUsage.Proofs.Controller.Display
import StackUsage.Proofs.Controller.Outcome

/-! What the handling of a route writes. Most of it is for the log alone: watches come and go, and
the index and the display stay. Besides that a route clears the index once, or it takes in one
report. Watches are granted only under generations that have been reached. None of this needs a law
of the watch service. -/

namespace StackUsage

namespace Notice

/-- Whether the notice is for the log alone: the index stays, and the host is told nothing. -/
def isAside : Notice → Bool
  | .dispatched _ => true
  | .attached _ _ _ => true
  | .released _ => true
  | .warned _ => true
  | _ => false

/-- Whether the host is told nothing by the notice. -/
def isUnseen : Notice → Bool
  | .decorated _ _ => false
  | .published _ => false
  | _ => true

theorem isUnseen_of_isAside {n : Notice} (h : n.isAside = true) : n.isUnseen = true := by
  cases n <;> first | rfl | cases h

end Notice

/-- Of a generation that has been reached. -/
def Route.Due (target report : Nat) : Route → Prop
  | .location => True
  | .target generation => generation ≤ target
  | .report generation _ => generation ≤ report

theorem Route.Due.mono {target report target' report' : Nat} {route : Route}
    (h : route.Due target report) (ht : target ≤ target') (hr : report ≤ report') :
    route.Due target' report' := by
  cases route with
  | location => trivial
  | target generation => exact Nat.le_trans h ht
  | report generation unit => exact Nat.le_trans h hr

/-- The grant of a watch is for a route of a generation that has been reached. -/
def Notice.Due (target report : Nat) : Notice → Prop
  | .attached _ _ route => route.Due target report
  | _ => True

theorem Notice.Due.mono {target report target' report' : Nat} {n : Notice}
    (h : n.Due target report) (ht : target ≤ target') (hr : report ≤ report') :
    n.Due target' report' := by
  cases n with
  | attached id path route => exact Route.Due.mono h ht hr
  | _ => trivial

namespace Controller

variable {σ : Type}

/-! ### Steps that write -/

/-- Notices that satisfy `p` were written down, no generation has gone back, and watches were
granted only under generations that have been reached. -/
structure Writes (p : Notice → Prop) (c c' : Controller σ) : Prop where
  journal : ∃ notices, c'.journal = c.journal ++ notices ∧
    ∀ n ∈ notices, p n ∧ n.Due c'.targetGeneration c'.reportGeneration
  target : c.targetGeneration ≤ c'.targetGeneration
  report : c.reportGeneration ≤ c'.reportGeneration

namespace Writes

variable {p q : Notice → Prop} {c c₁ c₂ : Controller σ}

theorem refl (c : Controller σ) : Writes p c c :=
  ⟨⟨[], (List.append_nil _).symm, by simp⟩, Nat.le_refl _, Nat.le_refl _⟩

theorem trans (h : Writes p c c₁) (h' : Writes p c₁ c₂) : Writes p c c₂ where
  journal := by
    obtain ⟨n₁, hj₁, hn₁⟩ := h.journal
    obtain ⟨n₂, hj₂, hn₂⟩ := h'.journal
    refine ⟨n₁ ++ n₂, by rw [hj₂, hj₁, List.append_assoc], fun n hm => ?_⟩
    rcases List.mem_append.1 hm with hm | hm
    · exact ⟨(hn₁ n hm).1, (hn₁ n hm).2.mono h'.target h'.report⟩
    · exact hn₂ n hm
  target := Nat.le_trans h.target h'.target
  report := Nat.le_trans h.report h'.report

theorem mono (h : Writes p c c₁) (hpq : ∀ n, p n → q n) : Writes q c c₁ where
  journal := by
    obtain ⟨notices, hj, hn⟩ := h.journal
    exact ⟨notices, hj, fun n hm => ⟨hpq n (hn n hm).1, (hn n hm).2⟩⟩
  target := h.target
  report := h.report

end Writes

/-- Only the log was written, and nothing that bears on the display has changed. -/
structure Aside (c c' : Controller σ) : Prop extends SameDisplay c c' where
  writes : Writes (·.isAside = true) c c'

theorem Aside.refl (c : Controller σ) : Aside c c := ⟨.refl c, .refl c⟩

theorem Aside.trans {c c₁ c₂ : Controller σ} (h : Aside c c₁) (h' : Aside c₁ c₂) : Aside c c₂ :=
  ⟨h.toSameDisplay.trans h'.toSameDisplay, h.writes.trans h'.writes⟩

/-- What the service says is for the log, if no watch is granted out of turn. -/
theorem aside_heard (s : σ) {notices : List Notice} (c : Controller σ)
    (h : ∀ n ∈ notices, n.isAside = true ∧ n.Due c.targetGeneration c.reportGeneration) :
    Aside c (c.heard s notices) := by
  have unsent : ∀ n ∈ notices, n.sent? = none := by
    intro n hn
    have := (h n hn).1
    cases n <;> first | rfl | cases this
  exact ⟨sameDisplay_heard s unsent c, ⟨⟨notices, rfl, h⟩, Nat.le_refl _, Nat.le_refl _⟩⟩

theorem aside_withPending (routes : List Route) (c : Controller σ) :
    Aside c (c.withPending routes) :=
  ⟨sameDisplay_withPending routes c, ⟨⟨[], (List.append_nil _).symm, by simp⟩, Nat.le_refl _,
    Nat.le_refl _⟩⟩

theorem aside_heard_warned (s : σ) (warnings : List Warning) (c : Controller σ) :
    Aside c (c.heard s (warnings.map .warned)) :=
  aside_heard s c (by simp [Notice.isAside, Notice.Due])

theorem aside_warn (warnings : List Warning) (c : Controller σ) : Aside c (c.warn warnings) :=
  aside_heard_warned c.service warnings c

variable [WatchService σ]

omit [WatchService σ] in
theorem aside_released (s : σ) (ids : List Nat) (c : Controller σ) :
    Aside c (c.heard s (ids.map .released)) :=
  aside_heard s c (by simp [Notice.isAside, Notice.Due])

theorem aside_disposeAll (handles : List Handle) (c : Controller σ) :
    Aside c (c.disposeAll handles) := by
  rw [disposeAll_eq]
  exact aside_released _ _ c

theorem aside_attach (t : Tree) (path : Path) {route : Route} {c : Controller σ}
    (h : route.Due c.targetGeneration c.reportGeneration) :
    Aside c (c.attach t path route).1 := by
  obtain ⟨id, -, he⟩ | ⟨refusal, -, he⟩ := attach_cases t path route c
  · rw [he]
    refine aside_heard _ c fun n hn => ?_
    simp only [List.mem_append, List.mem_map, List.mem_singleton] at hn
    rcases hn with ⟨_, -, rfl⟩ | rfl
    · exact ⟨rfl, trivial⟩
    · exact ⟨rfl, h⟩
  · rw [he]
    exact aside_heard_warned _ _ c

omit [WatchService σ] in
/-- What is neither written nor displayed may change, and the generations may move on. -/
theorem Aside.advance {c c₁ c' : Controller σ} (h : Aside c c₁) (display : SameDisplay c₁ c')
    (journal : c'.journal = c₁.journal) (target : c₁.targetGeneration ≤ c'.targetGeneration)
    (report : c₁.reportGeneration ≤ c'.reportGeneration) : Aside c c' :=
  h.trans ⟨display, ⟨⟨[], by simp [journal], by simp⟩, target, report⟩⟩

theorem aside_dropTarget (c : Controller σ) : Aside c c.dropTarget := by
  rw [dropTarget_eq]
  let s := releaseAll (released c.targetWatch.current.toList) c.service
  exact (aside_released s _ c).advance ⟨rfl, rfl, rfl, rfl, rfl⟩ rfl (Nat.le_succ _)
    (Nat.le_refl _)

theorem aside_dropReports (c : Controller σ) : Aside c c.dropReports := by
  rw [dropReports_eq]
  let s := releaseAll (released c.reportWatches.items) c.service
  exact (aside_released s _ c).advance ⟨rfl, rfl, rfl, rfl, rfl⟩ rfl (Nat.le_refl _)
    (Nat.le_succ _)

theorem reportGeneration_dropReports (c : Controller σ) :
    c.dropReports.reportGeneration = c.reportGeneration + 1 := by
  rw [dropReports_eq]

/-- Once the watch on the real manifest is given up, the next one may be asked for. -/
theorem aside_attach_dropTarget (t : Tree) (target : Path) (c : Controller σ) :
    Aside c.dropTarget (c.dropTarget.attach t target (.target (c.targetGeneration + 1))).1 :=
  aside_attach t target (Nat.le_refl _)

theorem aside_attachReports (units : List ReportUnit) (d : Disk) {generation : Nat}
    {c : Controller σ} (h : generation ≤ c.reportGeneration) :
    Aside c (attachReports d generation c units).1 := by
  induction units generalizing d c with
  | nil => exact .refl c
  | cons unit rest ih =>
    have ha : Aside c (c.attach (d 0) unit.reportPath (.report generation unit)).1 :=
      aside_attach (d 0) unit.reportPath h
    rw [attachReports]
    split
    · next hq =>
      rw [hq] at ha
      exact ha.trans (ih _ (Nat.le_trans h ha.writes.report))
    · next failure hq =>
      rw [hq] at ha
      have hw := ha.trans (aside_warn [.unwatched unit.reportPath failure] _)
      exact hw.trans (ih _ (Nat.le_trans h hw.writes.report))

theorem aside_holdTarget (target : Path) (handle : Handle) (c : Controller σ) :
    Aside c (c.holdTarget target handle) :=
  (aside_disposeAll _ c).advance ⟨rfl, rfl, rfl, rfl, rfl⟩ rfl (Nat.le_refl _) (Nat.le_refl _)

theorem aside_holdReports (handles : List Handle) (c : Controller σ) :
    Aside c (c.holdReports handles) :=
  (aside_disposeAll _ c).advance ⟨rfl, rfl, rfl, rfl, rfl⟩ rfl (Nat.le_refl _) (Nat.le_refl _)

/-! ### What one route writes -/

/-- The index was cleared, and besides that only the log was written. -/
def Clears (c c' : Controller σ) : Prop :=
  ∃ c₁, Aside c c₁ ∧ c.reportGeneration < c₁.reportGeneration ∧ Aside c₁.clearIndex c'

omit [WatchService σ] in
theorem Clears.within {c c₁ c₂ c' : Controller σ} (before : Aside c c₁) (h : Clears c₁ c₂)
    (after : Aside c₂ c') : Clears c c' := by
  obtain ⟨m, hm, hg, hc⟩ := h
  exact ⟨m, before.trans hm, Nat.lt_of_le_of_lt before.writes.report hg, hc.trans after⟩

theorem clears_forget (c : Controller σ) : Clears c c.dropReports.clearIndex :=
  ⟨_, aside_dropReports c, by simp [reportGeneration_dropReports], .refl _⟩

theorem clears_resetTiers (c : Controller σ) : Clears c c.resetTiers := by
  have hr := (aside_dropTarget c).trans (aside_dropReports c.dropTarget)
  refine ⟨{ c.dropTarget.dropReports with target := none }, ?_, ?_, .refl _⟩
  · exact hr.advance ⟨rfl, rfl, rfl, rfl, rfl⟩ rfl (Nat.le_refl _) (Nat.le_refl _)
  · refine Nat.lt_of_le_of_lt (aside_dropTarget c).writes.report ?_
    simp [reportGeneration_dropReports]

/-- A route writes for the log alone, or it clears the index once, or it takes in one report. -/
theorem Outcome.writes {d : Disk} {route : Route} {c : Controller σ} {handled : Handled σ}
    (outcome : Outcome d c route handled) :
    Aside c handled.controller ∨ Clears c handled.controller ∨
      ∃ unit, route = .report c.reportGeneration unit ∧
        handled.controller = c.processReport d unit := by
  cases outcome with
  | ignored _ => exact .inl (.refl c)
  | unresolved _ => exact .inl (.refl c)
  | missing _ _ => exact .inr (.inl (clears_resetTiers c))
  | @moved _ target handle c₁ _ _ ha =>
    have attached := aside_attach_dropTarget (d 1) target c
    rw [ha] at attached
    exact .inl (((aside_dropTarget c).trans attached).trans (aside_holdTarget target handle c₁))
  | @refused _ target failure c₁ _ _ ha =>
    have attached := aside_attach_dropTarget (d 1) target c
    rw [ha] at attached
    exact .inr (.inl (.within ((aside_dropTarget c).trans attached) (clears_resetTiers c₁)
      (.refl _)))
  | lost _ => exact .inr (.inl (clears_forget c))
  | unread _ _ => exact .inr (.inl (.within (.refl c) (clears_forget c) (aside_warn _ _)))
  | followed _ _ =>
    rename_i units _ _
    have attached := aside_attachReports units (d.after 3) (c := c.dropReports.clearIndex)
      (Nat.le_refl _)
    exact .inr (.inl (.within (.refl c) (clears_forget c)
      (attached.trans (aside_holdReports _ _))))
  | taken unit => exact .inr (.inr ⟨unit, rfl, rfl⟩)

/-- Taking a route from the queue and writing it down is for the log alone, and so is what follows
its handler. -/
theorem serve_within (d : Disk) (route : Route) (rest : List Route) (c : Controller σ) :
    ∃ c₁ handled, Aside c c₁ ∧ c₁.reportGeneration = c.reportGeneration ∧
      c₁.targetGeneration = c.targetGeneration ∧ c₁.location = c.location ∧
      c₁.reportWatches = c.reportWatches ∧ c₁.journal = c.journal ++ [.dispatched route] ∧
      Outcome d c₁ route handled ∧
      ∃ warnings, (c.serve d route rest).1 =
        (handled.controller.withPending (rest ++ handled.attached)).warn warnings := by
  obtain ⟨handled, outcome, -, after⟩ := serve_outcome d route rest c
  refine ⟨_, handled, (aside_withPending rest c).trans (aside_heard c.service _ ?_), rfl, rfl, rfl,
    rfl, rfl, outcome, after⟩
  simp [Notice.isAside, Notice.Due]

theorem serve_writes (d : Disk) (route : Route) (rest : List Route) (c : Controller σ) :
    Aside c (c.serve d route rest).1 ∨ Clears c (c.serve d route rest).1 ∨
      ∃ unit c₁, Aside c c₁ ∧ Aside (c₁.processReport d unit) (c.serve d route rest).1 := by
  obtain ⟨c₁, handled, before, -, -, -, -, -, outcome, warnings, he⟩ := serve_within d route rest c
  have after : Aside handled.controller (c.serve d route rest).1 := by
    rw [he]
    exact (aside_withPending _ _).trans (aside_warn warnings _)
  obtain h | h | ⟨unit, -, h⟩ := outcome.writes
  · exact .inl ((before.trans h).trans after)
  · exact .inr (.inl (.within before h after))
  · rw [h] at after
    exact .inr (.inr ⟨unit, c₁, before, after⟩)

end Controller

end StackUsage

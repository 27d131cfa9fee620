import StackUsage.Proofs.Controller.Frame
import StackUsage.Proofs.Watch.Holding

/-! What the service holds for a controller while handles are disposed of and reports attached, and
which routes a journal says were issued. Disposing releases the watch of each live handle. Attaching
reports passes over those that are refused; the granted ones keep their order. -/

namespace StackUsage.Controller

open WatchService (Lawful Holding)

variable {σ : Type}

/-! ### Issued routes -/

/-- Whether a watch with this route was ever granted. -/
def Issued (c : Controller σ) (route : Route) : Prop :=
  ∃ id path, Notice.attached id path route ∈ c.journal

/-- Nothing among the notices is the grant of a watch. -/
def Quiet (notices : List Notice) : Prop := ∀ id path route, .attached id path route ∉ notices

theorem issued_iff {c c' : Controller σ} {notices : List Notice}
    (hj : c'.journal = c.journal ++ notices) (route : Route) :
    c'.Issued route ↔ c.Issued route ∨ ∃ id path, .attached id path route ∈ notices := by
  simp only [Issued, hj, List.mem_append, exists_or]

theorem issued_iff_of_quiet {c c' : Controller σ} {notices : List Notice}
    (hj : c'.journal = c.journal ++ notices) (hn : Quiet notices) (route : Route) :
    c'.Issued route ↔ c.Issued route := by
  rw [issued_iff hj, or_iff_left]
  rintro ⟨id, path, h⟩
  exact hn id path route h

theorem quiet_warned (warnings : List Warning) : Quiet (warnings.map .warned) := by
  simp [Quiet]

theorem quiet_released (ids : List Nat) : Quiet (ids.map .released) := by simp [Quiet]

theorem quiet_announced (news : List (Path × List Decoration)) (update : Update) :
    Quiet (news.map (fun (path, decorations) => .decorated path decorations) ++
      [.published update]) := by
  simp [Quiet]

variable [WatchService σ] {sound : σ → Prop}

/-! ### Disposing -/

theorem released_eq {handles : List Handle} (h : ∀ x ∈ handles, x.live = true) :
    released handles = handles.map (·.id) := by
  induction handles with
  | nil => rfl
  | cons x rest ih =>
    rw [released, List.flatMap_cons, ← released, ih fun y hy => h y (List.mem_cons_of_mem _ hy)]
    simp [Handle.dispose, h x (by simp)]

theorem holding_releaseAll (law : Lawful σ sound) {others own ws : List LiveWatch} {s : σ}
    (h : Holding sound others (ws ++ own) s) :
    Holding sound others own (releaseAll (ws.map (·.id)) s) := by
  induction ws generalizing s with
  | nil => exact h
  | cons w rest ih => exact ih (h.release law)

/-- Disposing of handles takes their watches out of what the service holds. -/
theorem holding_released (law : Lawful σ sound) {others own ws : List LiveWatch}
    {handles : List Handle} {s : σ} (h : Holding sound others (ws ++ own) s)
    (alive : ∀ x ∈ handles, x.live = true) (hids : handles.map (·.id) = ws.map (·.id)) :
    Holding sound others own (releaseAll (released handles) s) := by
  rw [released_eq alive, hids]
  exact holding_releaseAll law h

/-! ### Attaching -/

/-- The service was asked for watches: it granted the new ones besides what it held for the
controller before, and their routes are the only ones issued. -/
structure Granted (sound : σ → Prop) (others own new : List LiveWatch) (c c' : Controller σ) :
    Prop where
  heard : ∃ s notices, c' = c.heard s notices
  holding : Holding sound others (own ++ new) c'.service
  issued : ∀ route, c'.Issued route ↔ c.Issued route ∨ ∃ w ∈ new, w.route = route

variable {others own new new' : List LiveWatch} {c c₁ c₂ : Controller σ}

theorem Granted.trans (h : Granted sound others own new c c₁)
    (h' : Granted sound others (own ++ new) new' c₁ c₂) :
    Granted sound others own (new ++ new') c c₂ where
  heard := by
    obtain ⟨s₁, n₁, rfl⟩ := h.heard
    obtain ⟨s₂, n₂, rfl⟩ := h'.heard
    exact ⟨s₂, n₁ ++ n₂, heard_heard ..⟩
  holding := by
    rw [← List.append_assoc]
    exact h'.holding
  issued route := by
    rw [h'.issued, h.issued, or_assoc]
    simp only [List.mem_append, or_and_right, exists_or]

/-- Nothing was granted. -/
theorem Granted.none {s : σ} {notices : List Notice} (h : Holding sound others own s)
    (hn : Quiet notices) : Granted sound others own [] c (c.heard s notices) where
  heard := ⟨s, notices, rfl⟩
  holding := by
    rw [List.append_nil]
    exact h
  issued route := by
    rw [issued_iff_of_quiet rfl hn route]
    simp

theorem granted_attach (law : Lawful σ sound) (h : Holding sound others own c.service) (t : Tree)
    (path : Path) (route : Route) :
    (∃ id c', c.attach t path route = (c', .ok (.new id)) ∧
      Granted sound others own [⟨id, path, route⟩] c c') ∨
    ∃ failure c', c.attach t path route = (c', .error failure) ∧
      Granted sound others own [] c c' := by
  obtain ⟨id, ho, he⟩ | ⟨refusal, ho, he⟩ := attach_cases t path route c
  · refine .inl ⟨id, _, he, ⟨_, _, rfl⟩, h.granted law ho, fun r => ?_⟩
    rw [issued_iff rfl r]
    simp [eq_comm]
  · exact .inr ⟨_, _, he, .none (h.refused law ho) (quiet_warned _)⟩

/-! ### Attaching reports -/

/-- The watches of report handles that were attached under a generation. -/
def reportPart (generation : Nat) (held : List (Handle × ReportUnit)) : List LiveWatch :=
  held.map fun x => ⟨x.1.id, x.2.reportPath, .report generation x.2⟩

theorem granted_attachReports (law : Lawful σ sound) (generation : Nat) (units : List ReportUnit)
    (d : Disk) (h : Holding sound others own c.service) :
    Granted sound others own (reportPart generation (attachReports d generation c units).2) c
        (attachReports d generation c units).1 ∧
      ∀ x ∈ (attachReports d generation c units).2, x.1.live = true := by
  induction units generalizing own d c with
  | nil =>
    have hc : c.heard c.service [] = c := by simp [heard]
    refine ⟨?_, fun _ hx => absurd hx List.not_mem_nil⟩
    have hg : Granted sound others own [] c (c.heard c.service []) := .none h (by simp [Quiet])
    rw [hc] at hg
    exact hg
  | cons unit rest ih =>
    rw [attachReports]
    obtain ⟨id, c₁, he, hg⟩ | ⟨failure, c₁, he, hg⟩ :=
      granted_attach law h (d 0) unit.reportPath (.report generation unit)
    · rw [he]
      obtain ⟨hr, alive⟩ := ih (d.after 1) hg.holding
      refine ⟨hg.trans hr, fun x hx => ?_⟩
      rcases List.mem_cons.1 hx with rfl | hx
      · rfl
      · exact alive x hx
    · rw [he]
      have hw := hg.trans (.none hg.holding (quiet_warned [.unwatched unit.reportPath failure]))
      obtain ⟨hr, alive⟩ := ih (d.after 1) hw.holding
      exact ⟨hw.trans hr, alive⟩

end StackUsage.Controller

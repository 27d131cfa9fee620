import StackUsage.Controller.Pass

/-! What talking to the watch service does to a controller: the service changes, and the journal
grows by notices that are no decorations. Disposing of handles and asking for a watch are nothing
else, so all other fields stay as they are. -/

namespace StackUsage

/-- What the host is sent by a notice, if anything. -/
def Notice.sent? : Notice → Option (Path × List Decoration)
  | .decorated path decorations => some (path, decorations)
  | _ => none

namespace Controller

variable {σ : Type}

/-- The controller after the service has become `s` and the notices were written down. -/
def heard (s : σ) (notices : List Notice) (c : Controller σ) : Controller σ :=
  { c with service := s, journal := c.journal ++ notices }

/-- The controller with these routes in its queue. -/
def withPending (routes : List Route) (c : Controller σ) : Controller σ :=
  { c with pending := routes }

theorem warn_eq (c : Controller σ) (warnings : List Warning) :
    c.warn warnings = c.heard c.service (warnings.map .warned) := rfl

theorem heard_heard (c : Controller σ) (s s' : σ) (notices notices' : List Notice) :
    (c.heard s notices).heard s' notices' = c.heard s' (notices ++ notices') := by
  simp [heard]

variable [WatchService σ]

/-- The service after the watches with the given numbers are released one after another. -/
def releaseAll (ids : List Nat) (s : σ) : σ := ids.foldl (fun s id => WatchService.release id s) s

/-- The numbers that disposing of the handles releases. -/
def released (handles : List Handle) : List Nat := handles.flatMap fun h => h.dispose.2

theorem disposeAll_eq (c : Controller σ) (handles : List Handle) :
    c.disposeAll handles =
      c.heard (releaseAll (released handles) c.service)
        ((released handles).map .released) := by
  have run : ∀ (ids : List Nat) (c : Controller σ),
      ids.foldl releaseId c = c.heard (releaseAll ids c.service) (ids.map .released) := by
    intro ids
    induction ids with
    | nil => intro c; simp [heard, releaseAll]
    | cons id rest ih =>
      intro c
      rw [List.foldl_cons, ih]
      simp [releaseId, note, heard, releaseAll]
  exact run _ c

@[simp] theorem disposeAll_nil (c : Controller σ) : c.disposeAll [] = c := rfl

theorem dropTarget_eq (c : Controller σ) :
    c.dropTarget =
      { c.heard (releaseAll (released c.targetWatch.current.toList) c.service)
          ((released c.targetWatch.current.toList).map .released) with
        targetWatch := .empty
        targetGeneration := c.targetGeneration + 1 } := by
  rw [dropTarget, setTargetWatch, disposeAll_eq]
  rfl

theorem dropReports_eq (c : Controller σ) :
    c.dropReports =
      { c.heard (releaseAll (released c.reportWatches.items) c.service)
          ((released c.reportWatches.items).map .released) with
        reportWatches := .empty
        reportGeneration := c.reportGeneration + 1 } := by
  rw [dropReports, setReportWatches, disposeAll_eq]
  rfl

theorem resetTiers_heard (c : Controller σ) :
    c.resetTiers =
      { c.heard (releaseAll (released c.reportWatches.items)
            (releaseAll (released c.targetWatch.current.toList) c.service))
          ((released c.targetWatch.current.toList).map .released ++
            ((released c.reportWatches.items).map .released ++ [.cleared])) with
        index := .empty
        targetWatch := .empty
        reportWatches := .empty
        target := none
        targetGeneration := c.targetGeneration + 1
        reportGeneration := c.reportGeneration + 1
        renderAll := true } := by
  rw [resetTiers, dropReports_eq, dropTarget_eq]
  simp only [clearIndex, note, heard, List.append_assoc]

/-- A watch is granted or refused; either way only the service and the journal change. -/
theorem attach_cases (t : Tree) (path : Path) (route : Route) (c : Controller σ) :
    (∃ id, (WatchService.watch t path route c.service).outcome = .ok id ∧
      c.attach t path route =
        (c.heard (WatchService.watch t path route c.service).service
          ((WatchService.watch t path route c.service).warnings.map .warned ++
            [.attached id path route]), .ok (.new id))) ∨
    ∃ refusal, (WatchService.watch t path route c.service).outcome = .error refusal ∧
      c.attach t path route =
        (c.heard (WatchService.watch t path route c.service).service
          ((WatchService.watch t path route c.service).warnings.map .warned),
        .error (.watch refusal)) := by
  cases ho : (WatchService.watch t path route c.service).outcome with
  | ok id => exact .inl ⟨id, rfl, by simp [attach, ho, asked, warn, note, heard]⟩
  | error refusal => exact .inr ⟨refusal, rfl, by simp [attach, ho, asked, warn, note, heard]⟩

theorem attach_heard (t : Tree) (path : Path) (route : Route) (c : Controller σ) :
    ∃ s notices, (c.attach t path route).1 = c.heard s notices := by
  obtain ⟨_, -, he⟩ | ⟨_, -, he⟩ := attach_cases t path route c
  all_goals exact ⟨_, _, congrArg Prod.fst he⟩

/-- An event changes the service, may be warned about, and puts its routes at the end of the queue.
-/
theorem receive_eq (t : Tree) (event : Except String FileEvent) (c : Controller σ) :
    ∃ (warnings : List Warning) (routes : List Route), c.receive t event =
      (c.heard (c.receive t event).service (warnings.map .warned)).withPending
        (c.pending ++ routes) := by
  cases event with
  | ok event => exact ⟨_, _, rfl⟩
  | error text => exact ⟨[.eventFailed text], [], by simp [receive, warn, note, heard, withPending]⟩

theorem catchUp_eq (c : Controller σ) :
    c.catchUp = if (WatchService.takeOverflow c.service).1 then
      (c.heard (WatchService.takeOverflow c.service).2 [.warned .overflow]).withPending
        (c.pending ++ [.location])
    else c.heard (WatchService.takeOverflow c.service).2 [] := by
  unfold catchUp
  split <;> next hq => simp [hq, warn, note, heard, enqueue, withPending]

end Controller

end StackUsage

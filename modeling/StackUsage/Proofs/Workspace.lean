import Mathlib.Data.List.DropRight
import StackUsage.Proofs.Controller.Moments
import StackUsage.Workspace

/-! What the health report says of a workspace in service. It is brought up to date after passes
only, but requests to render leave what it shows of the controller as it is, so it is never behind.
Its count of failures goes back over the passes to the last one that succeeded, requests in between
not counted, and stops at the largest number of 32 bits. -/

namespace StackUsage

namespace Health

theorem toNat_countFailure (n : UInt32) :
    (countFailure n).toNat = min (n.toNat + 1) (UInt32.size - 1) := by
  have bound : n.toNat < UInt32.size := n.toNat_lt_size
  unfold countFailure
  split
  · next small =>
    rw [UInt32.toNat_add]
    exact (Nat.mod_eq_of_lt small).trans (Nat.min_eq_left (Nat.le_pred_of_lt small)).symm
  · omega

end Health

namespace Workspace

variable {σ : Type}

/-! ### Histories -/

/-- What the loop of a workspace takes up, an event or a request, or what comes about on its own: a
change of the watch service, or of what the host shows. -/
inductive Turn (σ : Type)
  | event (w : World) (event : Except String FileEvent)
  | request (d : Disk) (request : Request)
  | change (service : σ)
  | visible (documents : List Document)

/-- How many passes failed since the last one that did not. -/
def failuresInARow (outcomes : List (Option Failure)) : Nat :=
  (outcomes.rtakeWhile (·.isSome)).length

/-- The health shows the controller as it is now, and the failures of the latest passes. -/
structure Mirrors (outcomes : List (Option Failure)) (ws : Workspace σ) : Prop where
  tiers : ws.health.tiers = ws.controller.tiers
  target : ws.health.target = ws.controller.target
  usages : ws.health.usages = ws.controller.index.size
  sources : ws.health.sources = ws.controller.index.sourceCount
  failures : ws.health.consecutiveFailures.toNat = min (failuresInARow outcomes) (UInt32.size - 1)
  lastError : ws.health.lastError = outcomes.getLast?.join.map Failure.message

variable [WatchService σ]

def turn (turn : Turn σ) (ws : Workspace σ) : Workspace σ :=
  match turn with
  | .event w event => ws.handleEvent w event
  | .request d request => ws.handleRequest d request
  | .change service => { ws with controller := { ws.controller with service } }
  | .visible documents => { ws with controller := { ws.controller with documents } }

/-- The outcome of the pass that a turn makes, if it makes one. -/
def passes (turn : Turn σ) (ws : Workspace σ) : List (Option Failure) :=
  match turn with
  | .event w event => [(ws.controller.handleEvent w event).2]
  | .request _ _ => []
  | .change _ | .visible _ => []

/-- The workspaces that turns lead to from the start, with the outcomes of all passes so far. -/
inductive InService (w : World) (c : Controller σ) : List (Option Failure) → Workspace σ → Prop
  | start : InService w c [(c.start w).2] (start w c)
  | turn {outcomes : List (Option Failure)} {ws : Workspace σ} (turn : Turn σ) :
    InService w c outcomes ws → InService w c (outcomes ++ ws.passes turn) (ws.turn turn)

/-! ### Steps -/

theorem failuresInARow_concat (outcomes : List (Option Failure)) (outcome : Option Failure) :
    failuresInARow (outcomes ++ [outcome]) =
      if outcome.isSome then failuresInARow outcomes + 1 else 0 := by
  unfold failuresInARow
  rw [List.rtakeWhile_concat]
  split <;> simp

theorem failuresInARow_pos {outcomes : List (Option Failure)} :
    0 < failuresInARow outcomes ↔ outcomes.getLast?.join.isSome = true := by
  obtain rfl | ⟨earlier, latest, rfl⟩ := List.eq_nil_or_concat' outcomes
  · simp [failuresInARow]
  · rw [failuresInARow_concat, List.getLast?_concat]
    cases latest <;> simp

omit [WatchService σ] in
/-- A pass continues the count, whatever the health showed of the controller before. -/
theorem mirrors_afterPass {outcomes : List (Option Failure)} {health : Health}
    (counted : health.consecutiveFailures.toNat = min (failuresInARow outcomes) (UInt32.size - 1))
    (pass : Controller σ × Option Failure) :
    Mirrors (outcomes ++ [pass.2]) (afterPass health pass) where
  tiers := rfl
  target := rfl
  usages := rfl
  sources := rfl
  failures := by
    rw [failuresInARow_concat]
    cases hf : pass.2 with
    | none => simp [afterPass, Health.record, hf]
    | some failure =>
      simp only [afterPass, Health.record, hf, Option.isSome_some, if_true,
        Health.toNat_countFailure, counted]
      omega
  lastError := by simp [afterPass, Health.record]

omit [WatchService σ] in
/-- Rendering changes nothing that the health shows. -/
theorem Mirrors.handleRequest {outcomes : List (Option Failure)} {ws : Workspace σ}
    (h : Mirrors outcomes ws) (d : Disk) (request : Request) :
    Mirrors outcomes (ws.handleRequest d request) := by
  cases request with
  | documentsShown paths => exact ⟨h.tiers, h.target, h.usages, h.sources, h.failures, h.lastError⟩
  | refresh => exact ⟨h.tiers, h.target, h.usages, h.sources, h.failures, h.lastError⟩

theorem Mirrors.turn {outcomes : List (Option Failure)} {ws : Workspace σ}
    (h : Mirrors outcomes ws) (turn : Turn σ) :
    Mirrors (outcomes ++ ws.passes turn) (ws.turn turn) := by
  cases turn with
  | event w event => exact mirrors_afterPass h.failures (ws.controller.handleEvent w event)
  | request d request =>
    rw [passes, List.append_nil]
    exact h.handleRequest d request
  | change service =>
    rw [passes, List.append_nil]
    exact ⟨h.tiers, h.target, h.usages, h.sources, h.failures, h.lastError⟩
  | visible documents =>
    rw [passes, List.append_nil]
    exact ⟨h.tiers, h.target, h.usages, h.sources, h.failures, h.lastError⟩

theorem InService.mirrors {w : World} {c : Controller σ} {outcomes : List (Option Failure)}
    {ws : Workspace σ} (run : InService w c outcomes ws) : Mirrors outcomes ws := by
  induction run with
  | start =>
    have fresh : Health.initial.consecutiveFailures.toNat =
      min (failuresInARow []) (UInt32.size - 1) := rfl
    exact mirrors_afterPass fresh (c.start w)
  | turn turn _ ih => exact ih.turn turn

/-- The health mirrors the controller. From the start on, after any events and requests and
however the watch service and what the host shows change between them, the health shows the tiers,
the real manifest and the size of the index as the controller has them at that moment. It counts the
failing passes since the last pass that succeeded, up to the largest number of 32 bits, and shows an
error just if that number is positive: the one of the latest pass. -/
theorem health_mirrors_controller {w : World} {c : Controller σ} {outcomes : List (Option Failure)}
    {ws : Workspace σ} (run : InService w c outcomes ws) :
    ws.health.tiers = ws.controller.tiers ∧ ws.health.target = ws.controller.target ∧
    ws.health.usages = ws.controller.index.size ∧
    ws.health.sources = ws.controller.index.sourceCount ∧
    ws.health.consecutiveFailures.toNat = min (failuresInARow outcomes) (UInt32.size - 1) ∧
    (ws.health.lastError.isSome = true ↔ 0 < ws.health.consecutiveFailures) ∧
    ws.health.lastError = outcomes.getLast?.join.map Failure.message := by
  have h := run.mirrors
  refine ⟨h.tiers, h.target, h.usages, h.sources, h.failures, ?_, h.lastError⟩
  have positive : 0 < ws.health.consecutiveFailures ↔ 0 < failuresInARow outcomes := by
    rw [UInt32.lt_iff_toNat_lt, h.failures]
    change 0 < min (failuresInARow outcomes) 4294967295 ↔ _
    omega
  rw [positive, failuresInARow_pos, h.lastError, Option.isSome_map]

/-! ### A service that is refused -/

/-- A roster that refuses every watch and has lost events. -/
def unwilling : Roster := { Roster.empty with refuses := fun _ _ => true, overflowed := true }

/-- A controller of `pair` whose watches will all be refused. -/
def unwatched : Controller Roster := .new ⟨"/w"⟩ Controller.pairConfig unwilling []

/-- A delivery that failed. -/
def undelivered : Except String FileEvent := .error "lost"

def refusedStart : Workspace Roster := start (.still Controller.pair) unwatched

/-- The start is refused its watch, then the watch on the real manifest is refused, and in between
everything is rendered. -/
def refusedTwice : Workspace Roster :=
  (refusedStart.turn (.request (.still Controller.pair) .refresh)).turn
    (.event (.still Controller.pair) undelivered)

theorem refusedTwice_outcomes :
    (unwatched.start (.still Controller.pair)).2 = some (.watch (.refused ⟨"/w/m"⟩)) ∧
      ((refusedStart.turn (.request (.still Controller.pair) .refresh)).controller.handleEvent
        (.still Controller.pair) undelivered).2 = some (.watch (.refused ⟨"/w/m"⟩)) := by
  have evaluated : ∃ r ∈ unwatched.callIn 1 (.still Controller.pair) .start,
      r.2 = some (.watch (.refused ⟨"/w/m"⟩)) ∧
      ∃ r' ∈ ((afterPass .initial r).turn
          (.request (.still Controller.pair) .refresh)).controller.callIn 3
            (.still Controller.pair) (.handleEvent undelivered),
        r'.2 = some (.watch (.refused ⟨"/w/m"⟩)) := by
    decide +kernel
  obtain ⟨r, hr, first, r', hr', second⟩ := evaluated
  have started : unwatched.start (.still Controller.pair) = r := Controller.call_eq_of_callIn hr
  rw [refusedStart, start, started]
  exact ⟨first, (congrArg Prod.snd (Controller.call_eq_of_callIn hr')).trans second⟩

theorem health_mirrors_controller_refused :
    InService (.still Controller.pair) unwatched
        [some (.watch (.refused ⟨"/w/m"⟩)), some (.watch (.refused ⟨"/w/m"⟩))] refusedTwice ∧
      refusedTwice.health.consecutiveFailures.toNat = 2 ∧
      refusedTwice.health.lastError = some "Watch error: refused /w/m" ∧
      refusedTwice.health.tiers = refusedTwice.controller.tiers := by
  have run : InService (.still Controller.pair) unwatched _ refusedTwice :=
    .turn (.event (.still Controller.pair) undelivered)
      (.turn (.request (.still Controller.pair) .refresh) .start)
  obtain ⟨first, second⟩ := refusedTwice_outcomes
  simp only [passes, first, second, List.append_nil, List.singleton_append] at run
  obtain ⟨tiers, -, -, -, failures, -, lastError⟩ := health_mirrors_controller run
  exact ⟨run, failures, lastError, tiers⟩

end Workspace

end StackUsage

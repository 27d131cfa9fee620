import StackUsage.Proofs.Controller.Frame

/-! Runs of a controller. Inside a call the queue is served one route at a time, so what every
single service keeps holds when the queue is empty and only the put-off rendering is left. Between
calls the watch service may change on its own, and the host may make other documents visible. A run
is any sequence of such turns; which turns are allowed in a state is a parameter, so that each law
names what it needs. -/

namespace StackUsage.Controller

variable {σ : Type} [WatchService σ]

/-! ### Serving the queue -/

/-- Handles the route at the head of the queue. What it attaches goes to the end, and a failure is
logged and given back. -/
def serve (d : Disk) (route : Route) (rest : List Route) (c : Controller σ) :
    Controller σ × Option Failure :=
  let handled := (c.withPending rest).dispatch d route
  let next := handled.controller.withPending (rest ++ handled.attached)
  match handled.failure with
  | none => (next, none)
  | some failure => (next.warn [.handlerFailed c.root failure], some failure)

theorem drain_nil {w : World} {n : Nat} {first : Option Failure} {c : Controller σ}
    (h : c.pending = []) : c.drain w n first = (c.flush (w n), first) := by
  rw [drain]
  split
  · rfl
  · next h' => cases h.symm.trans h'

theorem drain_cons {w : World} {n : Nat} {first : Option Failure} {c : Controller σ}
    {route : Route} {rest : List Route} (h : c.pending = route :: rest) :
    c.drain w n first =
      (c.serve (w n) route rest).1.drain w (n + 1)
        (first.or (c.serve (w n) route rest).2) := by
  rw [drain]
  split
  · next h' => cases h.symm.trans h'
  · next route' rest' h' =>
    cases h.symm.trans h'
    simp only [serve]
    change (match ((c.withPending rest).dispatch (w n) route).failure with
      | none => _
      | some failure => _) = _
    cases ((c.withPending rest).dispatch (w n) route).failure with
    | none => simp only [Option.or_none]; rfl
    | some failure => cases first <;> rfl

/-- What every service of a route keeps holds once the queue is empty. -/
theorem drain_rule {w : World} {P : Nat → Option Failure → Controller σ → Prop}
    (step : ∀ {n : Nat} {first : Option Failure} {c : Controller σ} {route : Route}
      {rest : List Route}, c.pending = route :: rest → P n first c →
        P (n + 1) (first.or (c.serve (w n) route rest).2) (c.serve (w n) route rest).1)
    (n : Nat) (first : Option Failure) {c : Controller σ} (h : P n first c) :
    ∃ m c', c'.pending = [] ∧ P m (c.drain w n first).2 c' ∧
      (c.drain w n first).1 = c'.flush (w m) := by
  match hq : c.pending with
  | [] =>
    rw [drain_nil hq]
    exact ⟨n, c, hq, h, rfl⟩
  | route :: rest =>
    rw [drain_cons hq]
    exact drain_rule step _ _ (step hq h)
termination_by workLeft c.pending
decreasing_by
  rw [hq]
  have hp : (c.serve (w n) route rest).1.pending =
      rest ++ ((c.withPending rest).dispatch (w n) route).attached := by
    dsimp only [serve]
    split <;> rfl
  rw [hp]
  exact workLeft_lt fun q hq => depth_lt_of_mem_attached hq

/-! ### Calls and runs -/

inductive Call
  | start
  | handle (route : Route)
  | handleEvent (event : Except String FileEvent)
  | documentsShown (paths : List Path)
  | refresh

/-- A call on a controller: the controller after it and the failure that it reports. -/
def call (w : World) (call : Call) (c : Controller σ) : Controller σ × Option Failure :=
  match call with
  | .start => c.start w
  | .handle route => c.handle w route
  | .handleEvent event => c.handleEvent w event
  | .documentsShown paths => ((c.documentsShown (w 0) paths).1, none)
  | .refresh => ((c.refresh (w 0)).1, none)

/-- A call, or what comes about between calls: a change of the watch service, or of what the host
shows. -/
inductive Turn (σ : Type)
  | call (w : World) (call : Call)
  | change (service : σ)
  | visible (documents : List Document)

def turn (turn : Turn σ) (c : Controller σ) : Controller σ :=
  match turn with
  | .call w call => (c.call w call).1
  | .change service => { c with service }
  | .visible documents => { c with documents }

/-- The states that turns lead to, each of them allowed in the state it is taken in. -/
inductive Reached (allowed : Controller σ → Turn σ → Prop) (first : Controller σ) :
    Controller σ → Prop
  | first : Reached allowed first first
  | turn {c : Controller σ} {t : Turn σ} :
    Reached allowed first c → allowed c t → Reached allowed first (c.turn t)

/-- What every allowed turn keeps holds in every state that is reached. -/
theorem Reached.induct {allowed : Controller σ → Turn σ → Prop} {first c : Controller σ}
    {P : Controller σ → Prop} (h : Reached allowed first c) (hfirst : P first)
    (step : ∀ {c : Controller σ} {t : Turn σ}, P c → allowed c t → P (c.turn t)) : P c := by
  induction h with
  | first => exact hfirst
  | turn _ ha ih => exact step ih ha

end StackUsage.Controller

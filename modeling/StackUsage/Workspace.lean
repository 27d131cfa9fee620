import StackUsage.Controller.Pass

/-! A workspace in service: its controller, and a health report brought up to date after every
pass. Passes come from the start and from events; requests to render leave the health as it is. -/

namespace StackUsage

structure Health where
  target : Option Path
  tiers : Tiers
  usages : Nat
  sources : Nat
  lastError : Option String
  consecutiveFailures : UInt32
  deriving DecidableEq, Repr

namespace Health

/-- The health before the first pass. -/
def initial : Health := ⟨none, ⟨false, false, 0⟩, 0, 0, none, 0⟩

/-- One more, but never past the largest number of 32 bits. -/
def countFailure (n : UInt32) : UInt32 := if n.toNat + 1 < UInt32.size then n + 1 else n

/-- The health after a pass that left the controller as it is now. -/
def record (h : Health) (c : Controller σ) (failure : Option Failure) : Health where
  target := c.target
  tiers := c.tiers
  usages := c.index.size
  sources := c.index.sourceCount
  lastError := failure.map Failure.message
  consecutiveFailures := if failure.isSome then countFailure h.consecutiveFailures else 0

end Health

structure Workspace (σ : Type) where
  controller : Controller σ
  health : Health

namespace Workspace

/-- What a host may ask for between events. -/
inductive Request
  | documentsShown (paths : List Path)
  | refresh
  deriving DecidableEq, Repr

variable {σ : Type} [WatchService σ]

/-- Takes down the outcome of a pass; a failure is logged. -/
def afterPass (health : Health) (pass : Controller σ × Option Failure) : Workspace σ :=
  let warnings := pass.2.toList.map (Warning.passFailed pass.1.root)
  ⟨pass.1.warn warnings, health.record pass.1 pass.2⟩

def start (w : World) (c : Controller σ) : Workspace σ := afterPass .initial (c.start w)

def handleEvent (w : World) (event : Except String FileEvent) (ws : Workspace σ) : Workspace σ :=
  afterPass ws.health (ws.controller.handleEvent w event)

def handleRequest (d : Disk) (request : Request) (ws : Workspace σ) : Workspace σ :=
  match request with
  | .documentsShown paths => { ws with controller := (ws.controller.documentsShown d paths).1 }
  | .refresh => { ws with controller := (ws.controller.refresh d).1 }

end Workspace

end StackUsage

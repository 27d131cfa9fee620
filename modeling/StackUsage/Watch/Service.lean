import StackUsage.Watch.Route
import StackUsage.Warning

/-! What a controller needs of a watch service: to attach a watch to a path with a route, to
release it again, to turn events into routes, and to tell once if events were lost. The live
watches are there to be looked at. -/

namespace StackUsage

/-- A watch that has been attached and not released. -/
structure LiveWatch where
  id : Nat
  path : Path
  route : Route
  deriving DecidableEq, Repr

/-- The answer to a request for a watch, and the service after it. -/
structure Attempt (σ : Type) where
  outcome : Except WatchRefusal Nat
  warnings : List Warning
  service : σ

/-- The routes an event yields, and the service after it. -/
structure Routing (σ : Type) where
  routes : List Route
  warnings : List Warning
  service : σ

class WatchService (σ : Type) where
  watch : Tree → Path → Route → σ → Attempt σ
  release : Nat → σ → σ
  route : Tree → FileEvent → σ → Routing σ
  takeOverflow : σ → Bool × σ
  live : σ → List LiveWatch

end StackUsage

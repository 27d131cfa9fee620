import StackUsage.Watch.Service

/-! The simplest watch service: a list of who watches which path. It may refuse any request, by
the request's number and path, and it hands an event to everyone who watches one of its paths,
whatever kind of event it is and whatever the tree holds. -/

namespace StackUsage

structure Roster where
  refuses : Nat → Path → Bool
  requests : Nat
  nextId : Nat
  watches : List LiveWatch
  overflowed : Bool

namespace Roster

/-- A roster that refuses nothing. -/
def empty : Roster := ⟨fun _ _ => false, 0, 1, [], false⟩

def watch (target : Path) (route : Route) (r : Roster) : Attempt Roster :=
  let asked := { r with requests := r.requests + 1 }
  if r.refuses r.requests target then ⟨.error (.refused target), [], asked⟩
  else
    ⟨.ok r.nextId, [],
      { asked with
        nextId := r.nextId + 1
        watches := r.watches ++ [⟨r.nextId, target, route⟩] }⟩

def release (id : Nat) (r : Roster) : Roster :=
  { r with watches := r.watches.filter (·.id ≠ id) }

/-- The routes of everyone who watches the path, oldest watch first. -/
def routesAt (r : Roster) (p : Path) : List Route :=
  (r.watches.filter (·.path.same p)).map (·.route)

def route (event : FileEvent) (r : Roster) : Routing Roster :=
  ⟨event.paths.flatMap r.routesAt, [], r⟩

instance : WatchService Roster where
  watch _ := watch
  release := release
  route _ := route
  takeOverflow r := (r.overflowed, { r with overflowed := false })
  live r := r.watches

end Roster

end StackUsage

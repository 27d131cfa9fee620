import StackUsage.Watch.Service

/-! Watches on single files over a system that watches directories. A registration is armed at
the directory of its file, or at the nearest directory above that exists, and moves as directories
come and go; registrations at the same real directory share one watch of the system, which is
counted. A registration fires when an event names its file in the directory it is armed at, and
when it reaches its own directory after having been armed elsewhere.

The system may refuse to watch a directory. Which request is refused is up to the watcher that the
registry is given; nothing here assumes that it is consistent. -/

namespace StackUsage

/-- The directory watcher of the system: what it holds, and which requests it refuses, by number
and directory. -/
structure DirectoryWatcher where
  refuses : Nat → Path → Option String
  requests : Nat
  held : List Path

namespace DirectoryWatcher

/-- A watcher that refuses nothing. -/
def willing : DirectoryWatcher := ⟨fun _ _ => none, 0, []⟩

/-- Asks for a watch; the text is why it is refused. -/
def acquire (w : DirectoryWatcher) (directory : Path) : Option String × DirectoryWatcher :=
  match w.refuses w.requests directory with
  | some text => (some text, { w with requests := w.requests + 1 })
  | none => (none, { w with requests := w.requests + 1, held := w.held ++ [directory] })

def release (w : DirectoryWatcher) (directory : Path) : DirectoryWatcher :=
  { w with held := w.held.filter fun held => !held.same directory }

end DirectoryWatcher

/-- Where a registration is armed: the directory as spelled from the registered path, and its real
path, under which the system's watch is shared. -/
structure Armed where
  spelled : Path
  key : Path
  deriving DecidableEq, Repr

def Armed.same (a b : Armed) : Bool := a.spelled.same b.spelled && a.key.same b.key

structure Registration where
  id : Nat
  target : Path
  directory : Path
  fileName : String
  route : Route
  armed : Option Armed
  deriving DecidableEq, Repr

namespace Registration

/-- Whether it is armed at its own directory. -/
def isHome (r : Registration) : Bool := r.armed.any fun a => a.spelled.same r.directory

/-- Whether an event for this name in this directory is an event for the registered file. -/
def isHit (r : Registration) (directory : Path) (name : String) : Bool :=
  r.fileName = name && r.isHome && r.armed.any fun a => a.key.same directory

end Registration

/-- The nearest directory that exists, the given one first; a relative path may have none. -/
def nearestDirectory? (t : Tree) (directory : Path) : Option Path :=
  (directory.ancestors.filter (·.chars ≠ [])).find? t.isDirectory

/-- Where a registration for this directory belongs on this tree. -/
def armedFor? (t : Tree) (directory : Path) : Option Armed :=
  (nearestDirectory? t directory).map fun spelled => ⟨spelled, t.realPath spelled⟩

structure Registry where
  watcher : DirectoryWatcher
  nextId : Nat
  registrations : List Registration
  references : List (Path × Nat)
  overflowed : Bool

/-- What becomes of an event that the system hands to the channel. -/
inductive Delivery
  | queued
  | full
  | closed
  deriving DecidableEq, Repr

namespace Registry

def empty (watcher : DirectoryWatcher) : Registry := ⟨watcher, 1, [], [], false⟩

/-- The number of directories watched. -/
def watchedDirectories (r : Registry) : Nat := r.references.length

/-! ### Shared directory watches -/

def isWatched (r : Registry) (key : Path) : Bool := r.references.any fun ref => ref.1.same key

/-- Adds one reference to a directory, asking the system first if it is the first one. The result
is the refusal, if there is one. -/
def acquire (r : Registry) (key : Path) : Option String × Registry :=
  if r.isWatched key then
    (none, { r with
      references := r.references.map fun ref =>
        if ref.1.same key then (ref.1, ref.2 + 1) else ref })
  else
    match r.watcher.acquire key with
    | (some text, watcher) => (some text, { r with watcher })
    | (none, watcher) => (none, { r with watcher, references := r.references ++ [(key, 1)] })

/-- Takes one reference away, and the system's watch with the last one. -/
def unreference (r : Registry) (key : Path) : Registry :=
  let references := r.references.map fun ref =>
    if ref.1.same key then (ref.1, ref.2 - 1) else ref
  { r with
    references := references.filter (·.2 ≠ 0)
    watcher :=
      if references.any fun ref => ref.1.same key && ref.2 = 0 then r.watcher.release key
      else r.watcher }

/-! ### Arming -/

def setArmed (r : Registry) (id : Nat) (armed : Option Armed) : Registry :=
  { r with
    registrations := r.registrations.map fun reg => if reg.id = id then { reg with armed } else reg }

/-- Whether a registration stays where it is. -/
def sameArmed : Option Armed → Option Armed → Bool
  | none, none => true
  | some a, some b => a.same b
  | _, _ => false

/-- Gives up the reference that a registration holds. -/
def leave (r : Registry) (reg : Registration) : Registry :=
  match reg.armed with
  | none => r
  | some old => r.unreference old.key

/-- Moves a registration to another place: the old reference goes first. If the system refuses,
the registration is armed nowhere. -/
def moveTo (r : Registry) (reg : Registration) (place : Option Armed) :
    Registry × List Warning :=
  match place with
  | none => ((r.leave reg).setArmed reg.id none, [])
  | some place =>
    match (r.leave reg).acquire place.key with
    | (none, next) => (next.setArmed reg.id (some place), [])
    | (some text, next) => (next.setArmed reg.id none, [.directoryRefused place.key text])

/-- Arms a registration where it belongs now. -/
def arm (t : Tree) (r : Registry) (id : Nat) : Registry × List Warning :=
  match r.registrations.find? (·.id = id) with
  | none => (r, [])
  | some reg =>
    if sameArmed reg.armed (armedFor? t reg.directory) then (r, [])
    else r.moveTo reg (armedFor? t reg.directory)

/-- Whether the registration with this number is armed at its own directory. -/
def isHome (r : Registry) (id : Nat) : Bool :=
  r.registrations.any fun reg => reg.id = id && reg.isHome

/-- The route of a registration that has come home since `before`. -/
def arrivals (before after : Registry) (id : Nat) : List Route :=
  if before.isHome id then []
  else (after.registrations.filter fun reg => reg.id = id && reg.isHome).map (·.route)

/-- The state of a round of arming: the registry, the routes of those that came home, and what
the system refused. -/
structure Round where
  registry : Registry
  fired : List Route
  warnings : List Warning

def Round.next (t : Tree) (round : Round) (id : Nat) : Round :=
  let moved := round.registry.arm t id
  ⟨moved.1, round.fired ++ arrivals round.registry moved.1 id, round.warnings ++ moved.2⟩

/-- Arms every registration anew. -/
def rearm (t : Tree) (r : Registry) : Round :=
  (r.registrations.map (·.id)).foldl (Round.next t) ⟨r, [], []⟩

/-! ### The service -/

/-- Adds a registration that is armed nowhere yet. -/
def enroll (target directory : Path) (fileName : String) (route : Route) (r : Registry) :
    Registry :=
  { r with
    nextId := r.nextId + 1
    registrations := r.registrations ++ [⟨r.nextId, target, directory, fileName, route, none⟩] }

/-- Whether the registration with this number is armed nowhere. -/
def isLost (r : Registry) (id : Nat) : Bool :=
  r.registrations.any fun reg => reg.id = id && reg.armed.isNone

def watch (t : Tree) (target : Path) (route : Route) (r : Registry) : Attempt Registry :=
  match target.parent, target.fileName with
  | some directory, some fileName =>
    let armed := (r.enroll target directory fileName route).arm t r.nextId
    let lost := if armed.1.isLost r.nextId then [Warning.noAncestor target] else []
    ⟨.ok r.nextId, armed.2 ++ lost, armed.1⟩
  | _, _ => ⟨.error (.unplaced target), [], r⟩

def release (id : Nat) (r : Registry) : Registry :=
  (r.registrations.filter (·.id = id)).foldl leave
    { r with registrations := r.registrations.filter (·.id ≠ id) }

/-- The routes of the registrations that an event path names. -/
def hits (r : Registry) (p : Path) : List Route :=
  match p.parent, p.fileName with
  | some directory, some name =>
    (r.registrations.filter fun reg => reg.isHit directory name).map (·.route)
  | _, _ => []

/-- Whether an event may have changed where registrations belong. -/
def mayMove (event : FileEvent) (r : Registry) : Bool :=
  (r.registrations.any fun reg => !reg.isHome) ||
    (event.kind.isRemoval && event.paths.any r.isWatched)

def route (t : Tree) (event : FileEvent) (r : Registry) : Routing Registry :=
  if !event.kind.isRelevant then ⟨[], [], r⟩
  else
    if r.mayMove event then
      let round := r.rearm t
      ⟨event.paths.flatMap r.hits ++ round.fired, round.warnings, round.registry⟩
    else ⟨event.paths.flatMap r.hits, [], r⟩

/-- The system hands an event to the channel. One that finds the channel closed is not missed by
anybody. -/
def deliver (delivery : Delivery) (r : Registry) : Registry :=
  match delivery with
  | .full => { r with overflowed := true }
  | .queued | .closed => r

def takeOverflow (r : Registry) : Bool × Registry := (r.overflowed, { r with overflowed := false })

instance : WatchService Registry where
  watch := watch
  release := release
  route := route
  takeOverflow := takeOverflow
  live r := r.registrations.map fun reg => ⟨reg.id, reg.target, reg.route⟩

end Registry

end StackUsage

import StackUsage.Annotation
import StackUsage.Report
import StackUsage.Snapshot
import StackUsage.Watch.Handle
import StackUsage.Watch.Service

/-! The state of one watched workspace. Three tiers of watches hang below each other: one on the
manifest's location, one on the real manifest, and one on every report that the manifest names.
Generations count how often the two lower tiers were torn down, and a route carries the generation
it was attached under.

Everything a host or a log could see is written into a journal, in order: routes as they are
handled, watches as they come and go, entries of the index as they are set, clearings of the index,
what documents are sent, updates and warnings. -/

namespace StackUsage

/-- Announced after every publication: the declared paths concerned, with none for everything,
how many documents were sent something, and the size of the index. -/
structure Update where
  affected : Option (List String)
  documents : Nat
  usages : Nat
  sources : Nat
  deriving DecidableEq, Repr

inductive Notice
  | dispatched (route : Route)
  | attached (id : Nat) (path : Path) (route : Route)
  | released (id : Nat)
  | indexed (sourceKey : String)
  | cleared
  | decorated (document : Path) (decorations : List Decoration)
  | published (update : Update)
  | warned (warning : Warning)
  deriving DecidableEq, Repr

/-- How many watches each tier holds. -/
structure Tiers where
  location : Bool
  target : Bool
  reports : Nat
  deriving DecidableEq, Repr

/-- The state over a watch service of type `σ`. While `renderAll` is set, publications of single
reports are held back for one publication of everything. The generations are not bounded; counters
of 64 bits agree with them as long as they have not wrapped. -/
structure Controller (σ : Type) where
  root : Path
  config : Config
  service : σ
  documents : List Document
  index : Index
  locationWatch : Slot Handle
  targetWatch : Slot Handle
  reportWatches : Batch Handle
  target : Option Path
  targetGeneration : Nat
  reportGeneration : Nat
  pending : List Route
  renderAll : Bool
  journal : List Notice

namespace Controller

variable {σ : Type}

def new (root : Path) (config : Config) (service : σ) (documents : List Document) :
    Controller σ where
  root
  config
  service
  documents
  index := .empty
  locationWatch := .empty
  targetWatch := .empty
  reportWatches := .empty
  target := none
  targetGeneration := 0
  reportGeneration := 0
  pending := []
  renderAll := false
  journal := []

def location (c : Controller σ) : Path := Snapshot.location c.root c.config

def tiers (c : Controller σ) : Tiers :=
  ⟨c.locationWatch.isSet, c.targetWatch.isSet, c.reportWatches.size⟩

def note (c : Controller σ) (notices : List Notice) : Controller σ :=
  { c with journal := c.journal ++ notices }

def warn (c : Controller σ) (warnings : List Warning) : Controller σ :=
  c.note (warnings.map .warned)

/-! ### Watches -/

section

variable [WatchService σ]

def releaseId (c : Controller σ) (id : Nat) : Controller σ :=
  { c with service := WatchService.release id c.service }.note [.released id]

/-- Disposes of handles one after another. -/
def disposeAll (c : Controller σ) (handles : List Handle) : Controller σ :=
  (handles.flatMap fun h => h.dispose.2).foldl releaseId c

def setLocationWatch (c : Controller σ) (held : Slot Handle × List Handle) : Controller σ :=
  { c.disposeAll held.2 with locationWatch := held.1 }

def setTargetWatch (c : Controller σ) (held : Slot Handle × List Handle) : Controller σ :=
  { c.disposeAll held.2 with targetWatch := held.1 }

def setReportWatches (c : Controller σ) (held : Batch Handle × List Handle) : Controller σ :=
  { c.disposeAll held.2 with reportWatches := held.1 }

/-- The controller once the service has answered a request for a watch. -/
def asked (attempt : Attempt σ) (c : Controller σ) : Controller σ :=
  { c with service := attempt.service }.warn attempt.warnings

/-- Asks the service for a watch. -/
def attach (t : Tree) (path : Path) (route : Route) (c : Controller σ) :
    Controller σ × Except Failure Handle :=
  let attempt := WatchService.watch t path route c.service
  match attempt.outcome with
  | .ok id => ((c.asked attempt).note [.attached id path route], .ok (.new id))
  | .error refusal => (c.asked attempt, .error (.watch refusal))

end

/-! ### Publishing -/

def clearIndex (c : Controller σ) : Controller σ :=
  { c with index := .empty, renderAll := true }.note [.cleared]

/-- Tells the host what it is sent and announces an update under the given paths. -/
def announce (sent : List (Path × List Decoration)) (paths : Option (List String))
    (c : Controller σ) : Controller σ :=
  c.note (sent.map (fun (path, decorations) => .decorated path decorations) ++
    [.published ⟨paths, sent.length, c.index.size, c.index.sourceCount⟩])

/-- What the given documents are sent on this disk. -/
def rendered (d : Disk) (affected : Affected) (documents : List Document) (c : Controller σ) :
    List (Path × List Decoration) :=
  Annotation.publish d c.config c.index affected documents

/-- Renders every document that the affected paths concern. -/
def publish (d : Disk) (affected : Affected) (c : Controller σ) : Controller σ :=
  c.announce (c.rendered d affected c.documents) affected.names?

end Controller

end StackUsage

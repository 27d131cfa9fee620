import StackUsage.Manifest

/-! What a watch is for, and what the file system reports. A route is handed back whenever its
watch fires; the generation in it tells whether the watch still belongs to the current tier. -/

namespace StackUsage

inductive Route
  | location
  | target (generation : Nat)
  | report (generation : Nat) (unit : ReportUnit)
  deriving DecidableEq, Repr

/-- How far down the tiers a route is: handling a route attaches only deeper ones. -/
def Route.depth : Route → Nat
  | .location => 0
  | .target _ => 1
  | .report _ _ => 2

inductive EventKind
  | any
  | other
  | access
  | createFile
  | createFolder
  | modifyAny
  | modifyData
  | modifyMetadata
  | modifyName
  | removeFile
  | removeFolder
  deriving DecidableEq, Repr

namespace EventKind

/-- Reading a file or touching its metadata concerns nobody. -/
def isRelevant : EventKind → Bool
  | .access => false
  | .modifyMetadata => false
  | _ => true

def isRemoval : EventKind → Bool
  | .removeFile => true
  | .removeFolder => true
  | _ => false

end EventKind

structure FileEvent where
  kind : EventKind
  paths : List Path
  deriving DecidableEq, Repr

end StackUsage

import StackUsage.Failure
import StackUsage.Report.Line

/-! What goes wrong without stopping anything: a bad report line, an unreadable report, a refused
watch, a failing handler. -/

namespace StackUsage

inductive Warning
  | droppedLine (number : Nat) (fault : Report.LineFault)
  | unreadReport (path : Path) (fault : Tree.Fault)
  | manifest (failure : Failure)
  | unwatched (path : Path) (failure : Failure)
  | handlerFailed (root : Path) (failure : Failure)
  | eventFailed (text : String)
  | overflow
  | noAncestor (target : Path)
  | directoryRefused (directory : Path) (text : String)
  | passFailed (root : Path) (failure : Failure)
  | lastError (root : Path) (text : String)
  | unshown (path : Path) (fault : Tree.Fault)
  | notSource (path : Path) (extensions : List String)
  deriving DecidableEq, Repr

def Warning.message : Warning → String
  | .droppedLine number fault =>
    "Dropping report line " ++ toString number ++ ": " ++ fault.message
  | .unreadReport path fault => "Reading " ++ path.spelling ++ " failed: " ++ fault.message
  | .manifest failure => failure.message
  | .unwatched path failure => "Cannot watch " ++ path.spelling ++ ": " ++ failure.message
  | .handlerFailed root failure =>
    "Watch handler for " ++ root.spelling ++ " failed: " ++ failure.message
  | .eventFailed text => "watch error: " ++ text
  | .overflow => "Dropped filesystem events; resynchronizing from the manifest location"
  | .noAncestor target => "no watchable ancestor for " ++ target.spelling
  | .directoryRefused directory text =>
    "failed to watch " ++ directory.spelling ++ ": " ++ text
  | .passFailed root failure => root.spelling ++ ": " ++ failure.message
  | .lastError root text => root.spelling ++ ": last error: " ++ text
  | .unshown path fault => "Cannot show " ++ path.spelling ++ ": " ++ fault.message
  | .notSource path extensions =>
    path.spelling ++ " is not a source file (extensions: " ++ ",".intercalate extensions ++ ")"

end StackUsage

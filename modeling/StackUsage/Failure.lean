import StackUsage.Path
import StackUsage.Tree.Fault

/-! The failures of reading a workspace and of watching it, and the words for them. -/

namespace StackUsage

namespace Manifest

/-- Why a text is no manifest. -/
inductive Fault
  | notJson
  | noInvocation (index : Nat) (file : String)
  deriving DecidableEq, Repr

def Fault.message : Fault → String
  | .notJson => "<json error>"
  | .noInvocation index file =>
    "entry " ++ toString index ++ " (" ++ file ++ ") has neither `command` nor `arguments`"

/-- Why a manifest file yields no records. -/
inductive Unreadable
  | access (fault : Tree.Fault)
  | content (fault : Fault)
  deriving DecidableEq, Repr

def Unreadable.message : Unreadable → String
  | .access fault => fault.message
  | .content fault => fault.message

end Manifest

/-- Why a watch service takes no watch on a path. -/
inductive WatchRefusal
  | unplaced (target : Path)
  | refused (target : Path)
  deriving DecidableEq, Repr

def WatchRefusal.message : WatchRefusal → String
  | .unplaced target => "cannot watch " ++ target.spelling ++ ": no parent directory or file name"
  | .refused target => "refused " ++ target.spelling

inductive Failure
  | access (fault : Tree.Fault)
  | manifest (path : Path) (reason : Manifest.Unreadable)
  | watch (reason : WatchRefusal)
  deriving DecidableEq, Repr

namespace Failure

def message : Failure → String
  | .access fault => "IO error: " ++ fault.message
  | .manifest path reason => "Manifest unreadable at " ++ path.spelling ++ ": " ++ reason.message
  | .watch reason => "Watch error: " ++ reason.message

/-- The message and then the causes below it, outermost first. -/
def chain : Failure → List String
  | .access fault => [message (.access fault), fault.message]
  | failure => [failure.message]

end Failure

end StackUsage

import StackUsage.Failure
import StackUsage.Path.Normal
import StackUsage.Tree

/-! Where the manifest really is. One level of link is followed, and the target is put together
from spellings alone; a path that is there and no link stays as given. -/

namespace StackUsage

inductive Resolution
  | real (target : Path)
  | direct (path : Path)
  | missing
  deriving DecidableEq, Repr

namespace Resolution

/-- The path to watch and to read, if any. -/
def path? : Resolution → Option Path
  | .real target => some target
  | .direct path => some path
  | .missing => none

/-- The normal form of a link's target seen from the directory of the link. -/
def linkTarget (p target : Path) : Path := ((p.parent.getD ⟨""⟩).join target).normalize

/-- A path that does not exist is missing, one that cannot be a link is direct, and every other
refusal is a failure. -/
def resolve (t : Tree) (p : Path) : Except Failure Resolution :=
  match t.readLink p with
  | .ok target => .ok (.real (linkTarget p target))
  | .error .notFound => .ok .missing
  | .error .notLink => .ok (.direct p)
  | .error .nulInName => .ok (.direct p)
  | .error fault => .error (.access fault)

end Resolution

end StackUsage

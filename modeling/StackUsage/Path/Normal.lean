import StackUsage.Path

/-! The lexical normal form of a path: no dots, and steps up only where there is nothing to go
back from. It looks at the spelling alone; whether a step up from a link leads elsewhere is not
its concern. -/

namespace StackUsage.Path

/-- Follows one component from the steps taken so far, the last step first. A step up takes back
a name; from the root it goes nowhere, and otherwise it stays. -/
def follow (taken : List Component) : Component → List Component
  | .here => taken
  | .root => [.root]
  | .name text => .name text :: taken
  | .up =>
    match taken with
    | .name _ :: rest => rest
    | .root :: rest => .root :: rest
    | taken => .up :: taken

def componentText : Component → List Char
  | .root => []
  | .here => ['.']
  | .up => ['.', '.']
  | .name text => text

/-- The plain spelling of components. -/
def ofComponents (cs : List Component) : Path := ofPieces (cs.map componentText)

def normalize (p : Path) : Path := ofComponents (p.components.foldl follow []).reverse

end StackUsage.Path

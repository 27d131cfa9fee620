import StackUsage.Tree

/-! Changes to a file tree. Planting makes the directories above as needed and writes through a
link to the file it denotes; removing takes everything below along; renaming carries a whole
directory over and replaces what stood at the new place. A change that the tree does not allow
leaves it as it was. -/

namespace StackUsage.Tree

/-- An empty tree with the working directory and the directories above it. -/
def withWorkdir (workdir : Location) : Tree :=
  ⟨workdir, (List.range workdir.length).map fun n => (workdir.take (n + 1), .directory)⟩

/-- Puts a node at a location, in place of the one there. -/
def put (t : Tree) (loc : Location) (node : Node) : Tree :=
  { t with nodes := t.nodes.filter (·.1 ≠ loc) ++ [(loc, node)] }

/-- Takes away a location and all below it. -/
def erase (t : Tree) (loc : Location) : Tree :=
  { t with nodes := t.nodes.filter fun entry => !loc.isPrefixOf entry.1 }

/-- Makes a directory at the path if nothing stands there. -/
def makeDirectory (t : Tree) (p : Path) : Tree :=
  match t.locate .target p with
  | .ok (.vacant loc) => t.put loc .directory
  | _ => t

/-- Makes the directory and those above it. -/
def makeDirectories (t : Tree) (p : Path) : Tree :=
  p.ancestors.reverse.foldl makeDirectory t

def makeParents (t : Tree) (p : Path) : Tree :=
  match p.parent with
  | none => t
  | some above => t.makeDirectories above

def writeFile (t : Tree) (p : Path) (text : Option String) : Tree :=
  let t := t.makeParents p
  match t.locate .target p with
  | .ok (.vacant loc) => t.put loc (.file text)
  | .ok (.entry loc (.file _)) => t.put loc (.file text)
  | _ => t

def makeLink (t : Tree) (p target : Path) : Tree :=
  let t := t.makeParents p
  match t.locate .name p with
  | .ok (.vacant loc) => t.put loc (.link target)
  | .ok (.entry loc (.file _)) => t.put loc (.link target)
  | .ok (.entry loc (.link _)) => t.put loc (.link target)
  | _ => t

def remove (t : Tree) (p : Path) : Tree :=
  match t.locate .name p with
  | .ok (.entry loc _) => t.erase loc
  | _ => t

/-- The location after the entry at `old` has moved to `new`. -/
def moved (old new loc : Location) : Location :=
  if old.isPrefixOf loc then new ++ loc.drop old.length else loc

def move (t : Tree) (old new : Location) : Tree :=
  if old.isPrefixOf new then t
  else
    let t := t.erase new
    { t with nodes := t.nodes.map fun (loc, node) => (moved old new loc, node) }

def rename (t : Tree) (source destination : Path) : Tree :=
  match t.locate .name source, t.locate .name destination with
  | .ok (.entry old _), .ok (.vacant new) => t.move old new
  | .ok (.entry old _), .ok (.entry new _) => t.move old new
  | _, _ => t

end StackUsage.Tree

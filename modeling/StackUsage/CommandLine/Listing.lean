import StackUsage.Json.Decode
import StackUsage.Tree.Edit

/-! A file tree written down as JSON: the working directory, and a list of nodes that are planted
in order. A node has a path and either a text, the target of a link, or nothing else, which makes
it a directory. -/

namespace StackUsage.CommandLine

/-- One node of a listing. -/
structure ListedNode where
  path : String
  text : Option String
  link : Option String
  deriving DecidableEq, Repr

def ListedNode.ofJson? (v : Json) : Option ListedNode := do
  match ← v.fields? ["path", "text", "link"] with
  | [path, text, link] =>
    return {
      path := ← Json.required? Json.text? path
      text := ← Json.optional? Json.text? text
      link := ← Json.optional? Json.text? link }
  | _ => none

def ListedNode.plant (t : Tree) (node : ListedNode) : Tree :=
  match node.text, node.link with
  | some text, _ => t.writeFile ⟨node.path⟩ (some text)
  | none, some target => t.makeLink ⟨node.path⟩ ⟨target⟩
  | none, none => t.makeDirectories ⟨node.path⟩

/-- The location that an absolute path spells. -/
def spelledLocation (p : Path) : Location := p.pieces.filter (· ≠ [])

/-- The tree of a listing. -/
def listedTree? (text : String) : Option Tree := do
  match ← (← Json.parse? text.toList).fields? ["workdir", "nodes"] with
  | [workdir, nodes] =>
    let workdir ← Json.required? Json.text? workdir
    let nodes ← Json.required? (Json.listOf? ListedNode.ofJson?) nodes
    return nodes.foldl ListedNode.plant (.withWorkdir (spelledLocation ⟨workdir⟩))
  | _ => none

end StackUsage.CommandLine

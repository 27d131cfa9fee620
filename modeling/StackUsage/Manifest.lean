import StackUsage.Failure
import StackUsage.Json.Decode
import StackUsage.Manifest.OutputName
import StackUsage.Tree

/-! The build manifest: a list of compile commands, and the report files that these commands leave
behind. A command may be written as one text or as arguments, which are joined by spaces; the text
wins. A command without an output flag has no report. -/

namespace StackUsage

/-- One compile command. The source file is kept as the manifest spells it. -/
structure Command where
  directory : Path
  invocation : String
  sourceFile : String
  deriving DecidableEq, Repr

/-- A report file, and the source it is about. -/
structure ReportUnit where
  sourceKey : String
  reportPath : Path
  directory : Path
  sourcePath : Path
  deriving DecidableEq, Repr

namespace Command

def reportName? (c : Command) (extension : String) : Option String :=
  Manifest.reportName? c.invocation extension

def reportPath? (c : Command) (extension : String) : Option Path :=
  (c.reportName? extension).map fun name => c.directory.join ⟨name⟩

def sourcePath (c : Command) : Path := c.directory.join ⟨c.sourceFile⟩

def unit? (c : Command) (extension : String) : Option ReportUnit :=
  (c.reportPath? extension).map fun reportPath =>
    { sourceKey := c.sourceFile, reportPath, directory := c.directory, sourcePath := c.sourcePath }

/-- The command with its directory seen from the directory of the manifest. -/
def anchored (c : Command) (manifestDir : Path) : Command :=
  { c with directory := manifestDir.join c.directory }

end Command

namespace Manifest

/-- A command as it is written, before it is known how it was invoked. -/
structure Entry where
  directory : String
  command : Option String
  arguments : Option (List String)
  file : String
  deriving DecidableEq, Repr

def fieldNames : List String := ["directory", "command", "arguments", "file"]

def Entry.ofJson? (v : Json) : Option Entry := do
  match ← v.fields? fieldNames with
  | [directory, command, arguments, file] =>
    return {
      directory := ← Json.required? Json.text? directory
      command := ← Json.optional? Json.text? command
      arguments := ← Json.optional? Json.texts? arguments
      file := ← Json.required? Json.text? file }
  | _ => none

def Entry.command? (e : Entry) (index : Nat) : Except Fault Command :=
  match e.command, e.arguments with
  | some text, _ => .ok ⟨⟨e.directory⟩, text, e.file⟩
  | none, some arguments => .ok ⟨⟨e.directory⟩, " ".intercalate arguments, e.file⟩
  | none, none => .error (.noInvocation index e.file)

/-- The entries of a JSON text, if it is a list of them. -/
def entries? (text : String) : Option (List Entry) :=
  (Json.parse? text.toList).bind (Json.listOf? Entry.ofJson?)

def parse (text : String) : Except Fault (List Command) :=
  match entries? text with
  | none => .error .notJson
  | some entries => (entries.zipIdx).mapM fun (entry, index) => entry.command? index

def read (t : Tree) (p : Path) : Except Failure (List Command) :=
  match t.readText p with
  | .error fault => .error (.manifest p (.access fault))
  | .ok text =>
    match parse text with
    | .error fault => .error (.manifest p (.content fault))
    | .ok commands => .ok commands

/-- The reports of the commands, in the order of the manifest. -/
def units (commands : List Command) (manifestDir : Path) (extension : String) : List ReportUnit :=
  commands.filterMap fun c => (c.anchored manifestDir).unit? extension

/-- The directory that holds the manifest at `p`. -/
def directory (p : Path) : Path := p.parent.getD ⟨""⟩

end Manifest

end StackUsage

import StackUsage.CommandLine.Arguments
import StackUsage.CommandLine.Render
import StackUsage.Watch.Registry
import StackUsage.Workspace

/-! The program as a function of a file tree, the environment and the arguments. A usage error is
exit code two without a word here; a failure is exit code one with its causes; warnings change
nothing about the exit code. -/

namespace StackUsage.CommandLine

/-- What a run leaves behind: the exit code, the printed text, the lines of the error and the
warnings. -/
structure Reply where
  exitCode : Nat
  output : String
  errors : List String
  warnings : List Warning
  deriving DecidableEq, Repr

namespace Reply

/-- A successful run that printed the given texts, each on lines of its own. -/
def printed (texts : List String) (warnings : List Warning) : Reply :=
  ⟨0, String.join (texts.map (· ++ "\n")), [], warnings⟩

/-- The lines of an error text, without blanks around them and without blank lines. -/
def errorLines (text : String) : List String :=
  (((text.toList.splitOn '\n').map Text.trim).filter (· ≠ [])).map String.ofList

/-- The causes of an error; two or more are numbered. -/
def causeTexts (causes : List String) : List String :=
  match causes with
  | [] => []
  | [cause] => [cause]
  | causes => causes.zipIdx.map fun (cause, n) => toString n ++ ": " ++ cause

def failed (text : String) (causes : List String) : Reply :=
  ⟨1, "", (text :: causeTexts causes).flatMap errorLines, []⟩

def misused : Reply := ⟨2, "", [], []⟩

end Reply

/-! ### Commands -/

/-- The files as documents, those that cannot be read left out with a warning. -/
def showFiles (t : Tree) (files : List Path) : List Document × List Warning :=
  (files.filterMap fun file => match t.readText file with
    | .ok text => some (Document.ofText file text)
    | .error _ => none,
  files.filterMap fun file => match t.readText file with
    | .ok _ => none
    | .error fault => some (.unshown file fault))

def annotate (t : Tree) (config : Config) (json : Bool) (root file : Path) : Reply :=
  let root := t.absolute root
  let file := t.absolute file
  if !t.isFile file then .failed ("Not a file: " ++ file.spelling) []
  else
    match Snapshot.load t config root with
    | .error failure =>
      .failed ("Failed to load stack usage for " ++ root.spelling) failure.chain
    | .ok snapshot =>
      let (documents, unshown) := showFiles t [file]
      let sent := Annotation.publish (.still t) config snapshot.index .all documents
      let skipped := if sent.isEmpty then [Warning.notSource file config.sourceExtensions] else []
      .printed (sent.map fun (path, decorations) => documentText json path decorations)
        (snapshot.warnings ++ unshown ++ skipped)

def report (t : Tree) (config : Config) (json : Bool) (file : Path) (baseDir : Option Path) :
    Reply :=
  let file := t.absolute file
  if !t.isFile file then .failed ("Report not found: " ++ file.spelling) []
  else
    let baseDir := match baseDir with
      | some dir => some (t.absolute dir)
      | none => file.parent
    let report := Report.read (.still t) config file ⟨baseDir, none⟩
    .printed [usagesText json report.usages] report.warnings

def manifest (t : Tree) (config : Config) (json : Bool) (root : Path) : Reply :=
  let root := t.absolute root
  match Snapshot.load t config root with
  | .error failure => .failed ("Failed to read manifest under " ++ root.spelling) failure.chain
  | .ok snapshot => .printed [manifestText json (manifestView t config snapshot)] snapshot.warnings

/-- The files that belong to each root: the first root above a file, or the first root at all. -/
def filesPerRoot (roots files : List Path) : List (List Path) :=
  let slot (file : Path) : Nat := (roots.findIdx? fun root => file.startsWith root).getD 0
  (List.range roots.length).map fun i => files.filter fun file => slot file = i

/-- The first pass over one root: what it prints and warns of. -/
def watchRoot (t : Tree) (config : Config) (json : Bool) (root : Path) (files : List Path) :
    List String × List Warning :=
  let (documents, unshown) := showFiles t files
  let ws := Workspace.start (.still t)
    (Controller.new root config (Registry.empty .willing) documents)
  let printed := ws.controller.journal.filterMap fun
    | .decorated path decorations => some (documentText json path decorations)
    | _ => none
  let warned := ws.controller.journal.filterMap fun
    | .warned warning => some warning
    | _ => none
  (printed, unshown ++ warned ++ ws.health.lastError.toList.map (.lastError root))

/-- Watches the roots as long as nothing changes: what is printed is the first pass of each. -/
def watch (t : Tree) (config : Config) (json : Bool) (roots shown : List Path) : Reply :=
  let roots := roots.map t.absolute
  match roots.find? fun root => !t.isDirectory root with
  | some root => .failed ("Not a directory: " ++ root.spelling) []
  | none =>
    let passes := (roots.zip (filesPerRoot roots (shown.map t.absolute))).map
      fun (root, files) => watchRoot t config json root files
    .printed (passes.flatMap (·.1)) (passes.flatMap (·.2))

/-! ### The program -/

def versionText : String := "stackscope 0.1.1"

/-- The settings of a run: the environment first, then the options. -/
def settings (environment : String → Option String) (invocation : Invocation) : Config :=
  (Config.ofEnvironment environment).override invocation.overrides

def perform (t : Tree) (config : Config) (json : Bool) : Action → Reply
  | .watch roots shown _ => watch t config json roots shown
  | .annotate root file => annotate t config json root file
  | .report file baseDir => report t config json file baseDir
  | .manifest root => manifest t config json root
  | .config => .printed [configText json config] []

def run (t : Tree) (environment : String → Option String) (args : List String) : Reply :=
  match parse args with
  | .error .misused => .misused
  | .error .helpWanted => .printed [] []
  | .error .versionWanted => .printed [versionText] []
  | .ok invocation =>
    perform t (settings environment invocation) invocation.json invocation.action

end StackUsage.CommandLine

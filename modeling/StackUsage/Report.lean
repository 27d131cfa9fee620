import StackUsage.Config
import StackUsage.Manifest
import StackUsage.Text.Lines
import StackUsage.Tree.Disk
import StackUsage.Warning

/-! Stack usage reports. A bad line is dropped with a warning and costs no other line. A declared
path with a slash is looked up, from the compile directory when it is relative, and kept as written
if nothing is there; a bare name of a source file stands for the compiled source. A report that
cannot be read has no records. -/

namespace StackUsage

/-- The records of a report and what had to be left out. -/
structure Report where
  usages : List Usage
  warnings : List Warning
  deriving DecidableEq, Repr

namespace Report

/-- The lines of a report that are not blank, with their numbers from one, read one by one. -/
def readLines (text : List Char) : List (Nat × Except LineFault Usage) :=
  ((Text.lines text).zipIdx 1).filterMap fun (raw, number) =>
    let line := Text.dropWhileEnd (· = '\r') raw
    if line.all Text.isBlank then none else some (number, parseLine line)

def usage? : Nat × Except LineFault Usage → Option Usage
  | (_, .ok usage) => some usage
  | (_, .error _) => none

def warning? : Nat × Except LineFault Usage → Option Warning
  | (_, .ok _) => none
  | (number, .error fault) => some (.droppedLine number fault)

def parse (text : String) : Report where
  usages := (readLines text.toList).filterMap usage?
  warnings := (readLines text.toList).filterMap warning?

/-! ### Declared paths -/

/-- Where relative paths of a report start, and the real path of its source. -/
structure Context where
  baseDir : Option Path
  fallback : Option Path
  deriving DecidableEq, Repr

/-- A declared path seen from the compile directory. -/
def Context.place (ctx : Context) (declared : Path) : Path :=
  match ctx.baseDir with
  | none => declared
  | some base => base.join declared

/-- The real path that a declared one stands for, as far as the tree knows it. -/
def realName (t : Tree) (config : Config) (ctx : Context) (declared : String) : String :=
  if Path.hasSeparator declared then
    match t.canonicalize (ctx.place ⟨declared⟩) with
    | .ok real => real.spelling
    | .error _ => declared
  else if config.isSource ⟨declared⟩ then
    match ctx.fallback with
    | some real => real.spelling
    | none => declared
  else declared

/-- Puts real paths in place of the declared ones; each record is one read. -/
def normalize (d : Disk) (config : Config) (ctx : Context) (usages : List Usage) : List Usage :=
  usages.mapIdx fun i u => { u with declaredPath := realName (d i) config ctx u.declaredPath }

/-! ### Reading -/

def read (d : Disk) (config : Config) (path : Path) (ctx : Context) : Report :=
  match (d 0).readText path with
  | .error fault => ⟨[], [.unreadReport path fault]⟩
  | .ok text =>
    let report := parse text
    { report with usages := normalize (d.after 1) config ctx report.usages }

end Report

/-- Reads the report of a unit: paths start from the compile directory, and bare source names
stand for the unit's source where that exists. -/
def ReportUnit.read (d : Disk) (config : Config) (unit : ReportUnit) : Report :=
  Report.read (d.after 1) config unit.reportPath
    ⟨some unit.directory, ((d 0).canonicalize unit.sourcePath).toOption⟩

end StackUsage

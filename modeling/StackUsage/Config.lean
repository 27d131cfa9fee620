import StackUsage.Path
import StackUsage.Text.Blank
import StackUsage.Json.Decode

/-! The settings of a workspace: what the manifest and the reports are called, which files are
sources, and two numbers for the watch service. The environment and the command line may override
the first three; an override that says nothing keeps the setting. -/

namespace StackUsage

structure Duration where
  nanoseconds : Nat
  deriving DecidableEq, Repr

namespace Duration

def ofMilliseconds (n : Nat) : Duration := ⟨n * 1000000⟩

/-- Whole milliseconds; the rest is cut off. -/
def milliseconds (d : Duration) : Nat := d.nanoseconds / 1000000

end Duration

structure Config where
  manifestName : String
  reportExtension : String
  sourceExtensions : List String
  eventBuffer : UInt64
  pollInterval : Duration
  deriving DecidableEq, Repr

namespace Config

def default : Config where
  manifestName := "compile_commands.json"
  reportExtension := "su"
  sourceExtensions := ["c", "cc", "cpp", "cxx", "c++", "h", "hh", "hpp", "hxx"]
  eventBuffer := 1024
  pollInterval := .ofMilliseconds 2000

/-! ### Extensions -/

def dropDots (s : List Char) : List Char := s.dropWhile (· = '.')

/-- The entries of a list with commas: blanks around an entry and the dots before it are dropped,
in this order and once each, and empty entries are left out. -/
def extensionList (s : String) : List String :=
  ((s.toList.splitOn ',').map fun entry => dropDots (Text.trim entry)).filter (· ≠ [])
    |>.map String.ofList

/-- Equality up to the case of ASCII letters. -/
def sameExtension (a b : String) : Bool := a.toList.map Char.toLower = b.toList.map Char.toLower

/-- Whether the path has one of the source extensions. -/
def isSource (c : Config) (p : Path) : Bool :=
  match p.extension with
  | none => false
  | some ext => c.sourceExtensions.any fun known => sameExtension known ext

/-! ### Overrides -/

structure Overrides where
  manifestName : Option String
  reportExtension : Option String
  sourceExtensions : Option String
  deriving DecidableEq, Repr

/-- A setting of the environment counts trimmed, and not at all if nothing is left of it. -/
def trimmed? (value : Option String) : Option String :=
  match value.map fun v => Text.trim v.toList with
  | none => none
  | some [] => none
  | some kept => some (String.ofList kept)

def Overrides.ofEnvironment (lookup : String → Option String) : Overrides where
  manifestName := trimmed? (lookup "STACKSCOPE_MANIFEST")
  reportExtension := trimmed? (lookup "STACKSCOPE_REPORT_EXT")
  sourceExtensions := trimmed? (lookup "STACKSCOPE_SOURCE_EXTENSIONS")

/-- Applies overrides; a list of extensions without an entry overrides nothing. -/
def override (c : Config) (o : Overrides) : Config :=
  { c with
    manifestName := o.manifestName.getD c.manifestName
    reportExtension :=
      match o.reportExtension with
      | none => c.reportExtension
      | some ext => String.ofList (dropDots ext.toList)
    sourceExtensions :=
      match o.sourceExtensions.map extensionList with
      | none => c.sourceExtensions
      | some [] => c.sourceExtensions
      | some list => list }

def ofEnvironment (lookup : String → Option String) : Config :=
  default.override (.ofEnvironment lookup)

/-! ### As JSON -/

/-- The largest count of milliseconds that is written. -/
def maxMilliseconds : Nat := UInt64.size - 1

def fieldNames : List String :=
  ["manifest_file_name", "report_extension", "source_extensions", "event_buffer",
    "notify_poll_interval"]

def toJson (c : Config) : Json :=
  .ofFields
    (fieldNames.zip
      [.ofText c.manifestName, .ofText c.reportExtension, .ofTexts c.sourceExtensions,
        .ofNat c.eventBuffer.toNat, .ofNat (min c.pollInterval.milliseconds maxMilliseconds)])

def ofJson? (v : Json) : Option Config := do
  match ← v.fields? fieldNames with
  | [manifestName, reportExtension, sourceExtensions, eventBuffer, pollInterval] =>
    return {
      manifestName := ← Json.required? Json.text? manifestName
      reportExtension := ← Json.required? Json.text? reportExtension
      sourceExtensions := ← Json.required? Json.texts? sourceExtensions
      eventBuffer := ← Json.required? Json.uint64? eventBuffer
      pollInterval := .ofMilliseconds (← Json.required? Json.uint64? pollInterval).toNat }
  | _ => none

/-- Reads a configuration from a JSON text. -/
def decode? (text : String) : Option Config := (Json.parse? text.toList).bind ofJson?

end Config

end StackUsage

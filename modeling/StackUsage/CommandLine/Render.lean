import StackUsage.Annotation
import StackUsage.Json.Printer
import StackUsage.Snapshot

/-! What the commands print: decorations of a document, records of a report, the view of a
manifest and the settings, each as plain text or as JSON. -/

namespace StackUsage.CommandLine

def compactText (v : Json) : String := String.ofList v.compact

def prettyText (v : Json) : String := String.ofList v.pretty

def joinLines (lines : List String) : String := "\n".intercalate lines

/-! ### Decorations -/

/-- The text with blanks behind it up to the given number of characters. -/
def padRight (width : Nat) (s : String) : String :=
  s ++ String.ofList (List.replicate (width - s.length) ' ')

def labelWidth : Nat := 24

def decorationJson (d : Decoration) : Json :=
  .ofFields [("line", .ofNat d.line), ("hover", .ofText d.hover), ("label", .ofText d.label)]

/-- One line per decoration, with the line number counted from one. -/
def decorationLine (document : Path) (d : Decoration) : String :=
  document.spelling ++ ":" ++ toString (d.line + 1) ++ ": " ++ padRight labelWidth d.label ++ " " ++
    d.hover

def documentText (json : Bool) (document : Path) (decorations : List Decoration) : String :=
  if json then
    compactText (.ofFields
      [("document", .ofText document.spelling),
        ("decorations", .array (decorations.map decorationJson))])
  else if decorations.isEmpty then document.spelling ++ ": no stack usage data"
  else joinLines (decorations.map (decorationLine document))

/-! ### Records -/

def usageLine (u : Usage) : String :=
  u.declaredPath ++ ":" ++ toString u.line.toNat ++ ":" ++ toString u.column.toNat ++ "\t" ++
    toString u.bytes.toNat ++ "\t" ++ ",".intercalate u.qualifiers.names ++ "\t" ++ u.signature

def usagesText (json : Bool) (usages : List Usage) : String :=
  if json then prettyText (.array (usages.map Usage.toJson))
  else if usages.isEmpty then "No records."
  else joinLines (usages.map usageLine)

/-! ### The manifest -/

/-- One report of the manifest: where it is, whether it is a file, and how many records the entry
of its source has. -/
structure UnitView where
  sourceKey : String
  reportPath : Path
  reportExists : Bool
  usages : Nat
  deriving DecidableEq, Repr

structure ManifestView where
  root : Path
  location : Path
  resolution : Resolution
  units : List UnitView
  usages : Nat
  deriving DecidableEq, Repr

def unitView (t : Tree) (index : Index) (unit : ReportUnit) : UnitView where
  sourceKey := unit.sourceKey
  reportPath := unit.reportPath
  reportExists := t.isFile unit.reportPath
  usages :=
    match index.entry? unit.sourceKey with
    | none => 0
    | some entry => entry.usages.length

def manifestView (t : Tree) (config : Config) (s : Snapshot) : ManifestView where
  root := s.root
  location := Snapshot.location s.root config
  resolution := s.manifest
  units := s.units.map (unitView t s.index)
  usages := s.index.size

def resolutionName : Resolution → String
  | .real _ => "symlink"
  | .direct _ => "file"
  | .missing => "missing"

def unitJson (u : UnitView) : Json :=
  .ofFields
    [("source_key", .ofText u.sourceKey), ("report_path", .ofText u.reportPath.spelling),
      ("report_exists", .bool u.reportExists), ("records", .ofNat u.usages)]

def manifestJson (v : ManifestView) : Json :=
  .ofFields
    [("root", .ofText v.root.spelling), ("location", .ofText v.location.spelling),
      ("resolution", .ofText (resolutionName v.resolution)),
      ("target", .ofOption (fun p => .ofText p.spelling) v.resolution.path?),
      ("units", .array (v.units.map unitJson)), ("records", .ofNat v.usages)]

def unitLine (u : UnitView) : String :=
  "  " ++ u.sourceKey ++ " -> " ++ u.reportPath.spelling ++ " [" ++
    (if u.reportExists then toString u.usages ++ " records" else "missing") ++ "]"

def manifestLines (v : ManifestView) : List String :=
  ["Manifest: " ++ v.location.spelling ++ " (" ++ resolutionName v.resolution ++ ")"] ++
    v.resolution.path?.toList.map (fun target => "Target:   " ++ target.spelling) ++
    if v.units.isEmpty then ["No reports."]
    else
      ("Reports:  " ++ toString v.units.length ++ " (" ++ toString v.usages ++ " records)") ::
        v.units.map unitLine

def manifestText (json : Bool) (v : ManifestView) : String :=
  if json then prettyText (manifestJson v) else joinLines (manifestLines v)

/-! ### Settings -/

def configText (json : Bool) (c : Config) : String :=
  if json then prettyText c.toJson
  else joinLines
    ["manifest_file_name: " ++ c.manifestName,
      "report_extension: " ++ c.reportExtension,
      "source_extensions: " ++ ",".intercalate c.sourceExtensions,
      "event_buffer: " ++ toString c.eventBuffer.toNat,
      "notify_poll_interval_ms: " ++ toString c.pollInterval.milliseconds]

end StackUsage.CommandLine

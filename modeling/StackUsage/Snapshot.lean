import StackUsage.Report
import StackUsage.Index
import StackUsage.Resolution

/-! One look at a workspace: the manifest, the reports it names and their records, without any
watch. A manifest that is missing, or a link to nothing, makes an empty snapshot. -/

namespace StackUsage

structure Snapshot where
  root : Path
  manifest : Resolution
  units : List ReportUnit
  index : Index
  warnings : List Warning
  deriving DecidableEq, Repr

namespace Snapshot

/-- The manifest's path below a root. -/
def location (root : Path) (config : Config) : Path := root.join ⟨config.manifestName⟩

/-- The reports named by the manifest that was found: none if there is no manifest, or if its path
leads nowhere. The first read of the disk, which found the manifest, is over. -/
def unitsOf (d : Disk) (config : Config) (manifest : Resolution) :
    Except Failure (List ReportUnit) :=
  match manifest.path? with
  | none => .ok []
  | some target =>
    if (d 1).present target then
      (Manifest.read (d 2) target).map fun commands =>
        Manifest.units commands (Manifest.directory target) config.reportExtension
    else .ok []

/-- Reads the units one after another into the index. -/
def indexOf (t : Tree) (config : Config) (units : List ReportUnit) : Index :=
  units.foldl (fun index unit => index.apply unit.sourceKey (unit.read (.still t) config).usages)
    .empty

def warningsOf (t : Tree) (config : Config) (units : List ReportUnit) : List Warning :=
  units.flatMap fun unit => (unit.read (.still t) config).warnings

def load (t : Tree) (config : Config) (root : Path) : Except Failure Snapshot := do
  let manifest ← Resolution.resolve t (location root config)
  let units ← unitsOf (.still t) config manifest
  return ⟨root, manifest, units, indexOf t config units, warningsOf t config units⟩

end Snapshot

end StackUsage

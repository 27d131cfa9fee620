import Mathlib.Data.List.Basic
import StackUsage.Proofs.Annotation
import StackUsage.Report

/-! How reports and documents meet. A report and a document may spell one file in different ways.
Each is looked up on its own, the one from the compile directory and the other from the working
directory, and where both have a real path it is the same text, so the record is found under it and
drawn without a look at the line. Conversely each decoration stems from a record of the index,
either one declared for the real path or one that is declared for its bare name and fits the line. A
path that is not found counts as its own real path. -/

namespace StackUsage

/-! ### Reports -/

/-- A reported path with a slash stands for its real path, seen from the compile directory if it is
relative, and the bare name of a source for the real path of the unit's source. -/
inductive ReportUnit.StandsFor (t : Tree) (config : Config) (unit : ReportUnit) (declared : String)
    (real : Path) : Prop
  | path : Path.hasSeparator declared = true →
    t.canonicalize (unit.directory.join ⟨declared⟩) = .ok real →
      StandsFor t config unit declared real
  | bare : Path.hasSeparator declared = false → config.isSource ⟨declared⟩ = true →
    t.canonicalize unit.sourcePath = .ok real → StandsFor t config unit declared real

variable {t : Tree} {config : Config} {unit : ReportUnit}

/-- What the reported paths of a unit are seen from. -/
def ReportUnit.context (t : Tree) (unit : ReportUnit) : Report.Context :=
  ⟨some unit.directory, (t.canonicalize unit.sourcePath).toOption⟩

/-- The record with a real path in place of the declared one, as far as the tree knows it. -/
def ReportUnit.located (t : Tree) (config : Config) (unit : ReportUnit) (u : Usage) : Usage :=
  { u with declaredPath := Report.realName t config (unit.context t) u.declaredPath }

/-- The records of a unit are those of its report, each one located. -/
theorem ReportUnit.usages_read {text : String} (opened : t.readText unit.reportPath = .ok text) :
    (unit.read (.still t) config).usages =
      (Report.parse text).usages.map (unit.located t config) := by
  simp only [ReportUnit.read, Report.read, Disk.after_still, Disk.still_apply, opened,
    Report.normalize]
  exact List.ext_getElem (by simp) (by simp [located, context])

theorem ReportUnit.StandsFor.located {u : Usage} {real : Path}
    (h : unit.StandsFor t config u.declaredPath real) :
    (unit.located t config u).declaredPath = real.spelling := by
  cases h with
  | path slash found =>
    simp only [ReportUnit.located, ReportUnit.context, Report.realName, Report.Context.place, slash,
      if_true, found]
  | bare plain source found =>
    simp only [ReportUnit.located, ReportUnit.context, Report.realName, plain, source, found,
      Except.toOption, Bool.false_eq_true, if_false, if_true]

namespace Annotation

variable {index : Index} {affected : Affected} {doc : Document}

/-! ### Decorations -/

/-- A record on a line of the document is drawn at it. -/
theorem decoration?_eq_some {u : Usage} {dec : Decoration} :
    decoration? doc u = some dec ↔ u.line ≠ 0 ∧ (doc.line? (u.line.toNat - 1)).isSome = true ∧
      dec = ⟨u.line.toNat - 1, u.signature, label u⟩ := by
  unfold decoration? lineIndex?
  by_cases hl : u.line = 0
  · simp [hl]
  · simp only [hl, if_false, Option.bind_some, Option.ite_none_right_eq_some, Option.some.injEq,
      ne_eq, not_false_eq_true, true_and]
    exact and_congr_right fun _ => eq_comm

theorem mem_decorations {usages : List Usage} {dec : Decoration} :
    dec ∈ decorations usages doc ↔ ∃ u ∈ usages, u.line ≠ 0 ∧
      (doc.line? (u.line.toNat - 1)).isSome = true ∧
        dec = ⟨u.line.toNat - 1, u.signature, label u⟩ := by
  simp only [decorations, List.mem_filterMap, decoration?_eq_some]

theorem mem_usagesFor {real : Path} {u : Usage} :
    u ∈ usagesFor index real doc ↔ u ∈ index.usages ∧
      (u.declaredPath = real.spelling ∨
        real.fileName = some u.declaredPath ∧ fits u doc = true) := by
  rw [usagesFor, List.mem_append, Index.mem_query]
  cases real.fileName with
  | none => simp
  | some name =>
    rw [List.mem_filter, Index.mem_query, Option.some.injEq, and_assoc, ← and_or_left,
      eq_comm (a := name)]

/-! ### Passes over a tree that stays as it is -/

theorem publish_still (documents : List Document) :
    publish (.still t) config index affected documents =
      documents.filterMap (render? t config index affected) :=
  have placed : Placed t.realPath documents (.still t) := fun _ _ _ => rfl
  publish_eq_view placed config index affected

/-- A source is sent its decorations in its turn. -/
theorem publish_all_source (source : config.isSource doc.path = true)
    (before after : List Document) :
    publish (.still t) config index .all (before ++ doc :: after) =
      publish (.still t) config index .all before ++
        (doc.path, decorations (usagesFor index (t.realPath doc.path) doc) doc) ::
          publish (.still t) config index .all after := by
  have drawn : render? t config index .all doc =
      some (doc.path, decorations (usagesFor index (t.realPath doc.path) doc) doc) := by
    simp [render?, source, Affected.includes]
  rw [publish_still, publish_still, publish_still, List.filterMap_append,
    List.filterMap_cons_some drawn]

/-- A record and a document that stand for one real path meet. Whatever the index held before,
once it has taken in the unit's report, rendering everything sends the document a decoration for the
record, and the text of the line plays no part. No decoration is sent but for a record of the index
that is declared for the document's real path, or for its bare name with a line that fits. -/
theorem records_meet_documents (t : Tree) (config : Config) (unit : ReportUnit) (index : Index) :
    (∀ text, t.readText unit.reportPath = .ok text →
      ∀ u ∈ (Report.parse text).usages, ∀ real, unit.StandsFor t config u.declaredPath real →
        ∀ doc : Document, config.isSource doc.path = true → t.canonicalize doc.path = .ok real →
          u.line ≠ 0 → (doc.line? (u.line.toNat - 1)).isSome = true →
            ∃ sent, ⟨u.line.toNat - 1, u.signature, label u⟩ ∈ sent ∧ ∀ before after,
              publish (.still t) config
                  (index.apply unit.sourceKey (unit.read (.still t) config).usages) .all
                  (before ++ doc :: after) =
                publish (.still t) config
                    (index.apply unit.sourceKey (unit.read (.still t) config).usages) .all before ++
                  (doc.path, sent) ::
                    publish (.still t) config
                      (index.apply unit.sourceKey (unit.read (.still t) config).usages) .all
                      after) ∧
    ∀ (shown : Index) affected documents path sent,
      (path, sent) ∈ publish (.still t) config shown affected documents →
      ∃ doc ∈ documents, doc.path = path ∧ ∀ dec ∈ sent, ∃ u ∈ shown.usages,
        dec = ⟨u.line.toNat - 1, u.signature, label u⟩ ∧
          (u.declaredPath = (t.realPath path).spelling ∨
            (t.realPath path).fileName = some u.declaredPath ∧ fits u doc = true) := by
  constructor
  · intro text opened u hu real same doc source found line there
    refine ⟨_, ?_, publish_all_source source⟩
    have real_eq : t.realPath doc.path = real := by rw [Tree.realPath, found]
    have taken : unit.located t config u ∈
        (index.apply unit.sourceKey (unit.read (.still t) config).usages).usages := by
      rw [ReportUnit.usages_read opened]
      exact Index.mem_usages.2 ⟨_, Index.mem_of_entry? (Index.entry?_apply_self ..),
        List.mem_map_of_mem hu⟩
    rw [real_eq, mem_decorations]
    exact ⟨unit.located t config u, mem_usagesFor.2 ⟨taken, .inl same.located⟩, line, there, rfl⟩
  · intro shown affected documents path sent hs
    rw [publish_still] at hs
    obtain ⟨doc, hd, drawn⟩ := List.mem_filterMap.1 hs
    unfold render? at drawn
    rw [Option.ite_none_right_eq_some, Option.some.injEq, Prod.mk.injEq] at drawn
    obtain ⟨-, rfl, rfl⟩ := drawn
    refine ⟨doc, hd, rfl, fun dec hdec => ?_⟩
    obtain ⟨u, hu, -, -, rfl⟩ := mem_decorations.1 hdec
    obtain ⟨mem, declared⟩ := mem_usagesFor.1 hu
    exact ⟨u, mem, rfl, declared⟩

/-! ### A source that is spelled in three ways -/

/-- Sources in one directory and a report in another, with a link between them. -/
def linked : Tree where
  workdir := [['w']]
  nodes :=
    [([['w']], .directory),
      ([['w'], ['b']], .directory),
      ([['w'], ['r']], .directory),
      ([['w'], ['r'], "m.c".toList], .file (some "")),
      ([['w'], ['b'], ['s']], .link ⟨"../r"⟩),
      ([['w'], ['b'], "m.su".toList],
        .file (some "s/m.c:1:5:f\t16\tstatic\nm.c:2:5:g\t8\tstatic"))]

def linkedUnit : ReportUnit := ⟨"../r/m.c", ⟨"/w/b/m.su"⟩, ⟨"/w/b"⟩, ⟨"/w/b/../r/m.c"⟩⟩

/-- The source, with lines that mention neither function. -/
def linkedDocument : Document := ⟨⟨"b/s/../r/./m.c"⟩, ["", ""]⟩

theorem records_meet_documents_linked : ∃ sent,
    publish (.still linked) .default
      (Index.empty.apply "../r/m.c" (linkedUnit.read (.still linked) .default).usages) .all
      [linkedDocument] = [(linkedDocument.path, sent)] ∧
    ⟨0, "f", "16 bytes"⟩ ∈ sent := by
  have opened : linked.readText linkedUnit.reportPath =
      .ok "s/m.c:1:5:f\t16\tstatic\nm.c:2:5:g\t8\tstatic" := by decide +kernel
  have reported : ⟨"s/m.c", 1, 5, "f", 16, ⟨true, false, false⟩⟩ ∈
      (Report.parse "s/m.c:1:5:f\t16\tstatic\nm.c:2:5:g\t8\tstatic").usages := by decide +kernel
  have same : linkedUnit.StandsFor linked .default "s/m.c" ⟨"/w/r/m.c"⟩ :=
    .path (by decide +kernel) (by decide +kernel)
  obtain ⟨meet, -⟩ := records_meet_documents linked .default linkedUnit .empty
  obtain ⟨sent, drawn, pass⟩ := meet _ opened _ reported _ same linkedDocument
    (by decide +kernel) (by decide +kernel) (by decide) (by decide +kernel)
  exact ⟨sent, pass [] [], drawn⟩

end Annotation

end StackUsage

import StackUsage.CommandLine.Render
import StackUsage.Proofs.Index

/-! What a snapshot holds for the sources of its manifest. The index is keyed by the source file as
the manifest spells it, and each unit replaces the entry of its key; so an entry holds the records
of the last unit with that key, and a unit that shares its key with a later one is not found. Two
sources in different directories may be spelled alike, as in the last section. -/

namespace StackUsage.Snapshot

/-! ### Loading -/

theorem load_eq {t : Tree} {config : Config} {root : Path} {manifest : Resolution}
    (h : Resolution.resolve t (location root config) = .ok manifest) :
    load t config root = (unitsOf (.still t) config manifest).map fun units =>
      ⟨root, manifest, units, indexOf t config units, warningsOf t config units⟩ := by
  simp only [load, h, bind, Except.bind]
  cases unitsOf (.still t) config manifest <;> rfl

theorem load_eq_ok {t : Tree} {config : Config} {root : Path} {s : Snapshot}
    (h : load t config root = .ok s) :
    Resolution.resolve t (location root config) = .ok s.manifest ∧
      unitsOf (.still t) config s.manifest = .ok s.units ∧ s.index = indexOf t config s.units := by
  cases hr : Resolution.resolve t (location root config) with
  | error failure => simp [load, hr, bind, Except.bind] at h
  | ok manifest =>
    rw [load_eq hr] at h
    cases hu : unitsOf (.still t) config manifest with
    | error failure => simp [hu, Except.map] at h
    | ok units =>
      simp only [hu, Except.map, Except.ok.injEq] at h
      subst h
      exact ⟨rfl, hu, rfl⟩

/-- A manifest that cannot be read was found all the same. -/
theorem resolve_of_unreadable {t : Tree} {config : Config} {root path : Path}
    {reason : Manifest.Unreadable}
    (h : load t config root = .error (.manifest path reason)) :
    ∃ manifest, Resolution.resolve t (location root config) = .ok manifest ∧
      unitsOf (.still t) config manifest = .error (.manifest path reason) := by
  cases hr : Resolution.resolve t (location root config) with
  | error failure =>
    have hl : failure = .manifest path reason := by
      simpa [load, hr, bind, Except.bind] using h
    unfold Resolution.resolve at hr
    subst hl
    split at hr <;> cases hr
  | ok manifest =>
    refine ⟨manifest, rfl, ?_⟩
    rw [load_eq hr] at h
    cases hu : unitsOf (.still t) config manifest with
    | error failure => simpa [hu, Except.map] using h
    | ok units => simp [hu, Except.map] at h

theorem path?_eq_none_iff {manifest : Resolution} :
    manifest.path? = none ↔ manifest = .missing := by
  cases manifest <;> simp [Resolution.path?]

/-! ### Entries -/

theorem indexOf_append (t : Tree) (config : Config) (units : List ReportUnit) (unit : ReportUnit) :
    indexOf t config (units ++ [unit]) =
      (indexOf t config units).apply unit.sourceKey (unit.read (.still t) config).usages := by
  simp [indexOf, List.foldl_append]

/-- Units with other keys leave an entry alone. -/
theorem entry?_indexOf_append {t : Tree} {config : Config} {units after : List ReportUnit}
    {key : String} (h : ∀ v ∈ after, v.sourceKey ≠ key) :
    Index.entry? (indexOf t config (units ++ after)) key =
      Index.entry? (indexOf t config units) key := by
  induction after generalizing units with
  | nil => rw [List.append_nil]
  | cons v rest ih =>
    rw [List.append_cons, ih fun w hw => h w (List.mem_cons_of_mem _ hw), indexOf_append,
      Index.entry?_apply_of_ne (Ne.symm (h v (by simp)))]

/-- The entry of a key has the records of the last unit with that key. -/
theorem entry?_indexOf {t : Tree} {config : Config} {before after : List ReportUnit}
    {unit : ReportUnit} (h : ∀ v ∈ after, v.sourceKey ≠ unit.sourceKey) :
    Index.entry? (indexOf t config (before ++ unit :: after)) unit.sourceKey =
      some ⟨unit.sourceKey, (unit.read (.still t) config).usages⟩ := by
  rw [List.append_cons, entry?_indexOf_append h, indexOf_append, Index.entry?_apply_self]

/-- The last unit with its source key keeps its entry: the index holds exactly the records of its
report, each is found under the path it is declared for, and the view of the manifest shows their
number wherever the key appears. -/
theorem last_unit_found {t : Tree} {config : Config} {root : Path} {s : Snapshot}
    (hs : load t config root = .ok s) {before after : List ReportUnit} {unit : ReportUnit}
    (hu : s.units = before ++ unit :: after)
    (hlast : ∀ v ∈ after, v.sourceKey ≠ unit.sourceKey) :
    s.index.entry? unit.sourceKey =
        some ⟨unit.sourceKey, (unit.read (.still t) config).usages⟩ ∧
      (∀ u ∈ (unit.read (.still t) config).usages, u ∈ s.index.query u.declaredPath) ∧
      CommandLine.unitView t s.index unit ∈ (CommandLine.manifestView t config s).units ∧
      ∀ view ∈ (CommandLine.manifestView t config s).units, view.sourceKey = unit.sourceKey →
        view.usages = (unit.read (.still t) config).usages.length := by
  obtain ⟨-, -, hi⟩ := load_eq_ok hs
  have hentry : s.index.entry? unit.sourceKey =
      some ⟨unit.sourceKey, (unit.read (.still t) config).usages⟩ := by
    rw [hi, hu]
    exact entry?_indexOf hlast
  refine ⟨hentry, fun u h => Index.mem_query_of_entry? hentry h, ?_, ?_⟩
  · rw [CommandLine.manifestView]
    exact List.mem_map_of_mem (by simp [hu])
  · intro view hv hk
    rw [CommandLine.manifestView] at hv
    obtain ⟨v, -, rfl⟩ := List.mem_map.1 hv
    have hk : v.sourceKey = unit.sourceKey := hk
    simp only [CommandLine.unitView, hk, hentry]

/-! ### Sources of one spelling -/

/-- Compile commands in two directories: `m.c` is compiled in both. -/
def twinManifest : String :=
  "[\x7b\"directory\":\"a\",\"command\":\"cc -o m.o m.c\",\"file\":\"m.c\"\x7d," ++
    "\x7b\"directory\":\"b\",\"command\":\"cc -o m.o m.c\",\"file\":\"m.c\"\x7d," ++
    "\x7b\"directory\":\"b\",\"command\":\"cc -o n.o n.c\",\"file\":\"n.c\"\x7d]"

/-- One record for `m.c` in the first directory, two for the one in the second. -/
def twins : Tree where
  workdir := [['w']]
  nodes :=
    [([['w']], .directory),
      ([['w'], ['a']], .directory),
      ([['w'], ['b']], .directory),
      ([['w'], "compile_commands.json".toList], .file (some twinManifest)),
      ([['w'], ['a'], "m.c".toList], .file (some "int f;")),
      ([['w'], ['a'], "m.su".toList], .file (some "m.c:1:5:f\t16\tstatic")),
      ([['w'], ['b'], "m.su".toList],
        .file (some "m.c:2:5:g\t32\tstatic\nm.c:3:5:h\t8\tdynamic"))]

/-- The tree after everything in it was removed. -/
def bare : Tree := ⟨twins.workdir, []⟩

def twinUnit (directory name : String) : ReportUnit where
  sourceKey := name ++ ".c"
  reportPath := ⟨"/w/" ++ directory ++ "/" ++ name ++ ".su"⟩
  directory := ⟨"/w/" ++ directory⟩
  sourcePath := ⟨"/w/" ++ directory ++ "/" ++ name ++ ".c"⟩

theorem eq_ok_of_toOption {ε α : Type} {x : Except ε α} {a : α} (h : x.toOption = some a) :
    x = .ok a := by
  cases x with
  | error failure => cases h
  | ok b => exact congrArg Except.ok (Option.some.inj h)

theorem resolve_twins :
    Resolution.resolve twins (location ⟨"/w"⟩ .default) =
      .ok (.direct ⟨"/w/compile_commands.json"⟩) :=
  eq_ok_of_toOption (by decide +kernel)

theorem unitsOf_twins :
    unitsOf (.still twins) .default (.direct ⟨"/w/compile_commands.json"⟩) =
      .ok [twinUnit "a" "m", twinUnit "b" "m", twinUnit "b" "n"] :=
  eq_ok_of_toOption (by decide +kernel)

theorem load_twins : ∃ s, load twins .default ⟨"/w"⟩ = .ok s ∧
    s.units = [twinUnit "a" "m", twinUnit "b" "m", twinUnit "b" "n"] := by
  rw [load_eq resolve_twins, unitsOf_twins]
  exact ⟨_, rfl, rfl⟩

theorem last_unit_found_twins : ∃ s, load twins .default ⟨"/w"⟩ = .ok s ∧
    s.units = [twinUnit "a" "m"] ++ twinUnit "b" "m" :: [twinUnit "b" "n"] ∧
    (∀ v ∈ [twinUnit "b" "n"], v.sourceKey ≠ (twinUnit "b" "m").sourceKey) ∧
    s.index.entry? "m.c" =
      some ⟨"m.c", ((twinUnit "b" "m").read (.still twins) .default).usages⟩ := by
  obtain ⟨s, hs, hu⟩ := load_twins
  have hu : s.units = [twinUnit "a" "m"] ++ twinUnit "b" "m" :: [twinUnit "b" "n"] := hu
  have hlast : ∀ v ∈ [twinUnit "b" "n"], v.sourceKey ≠ (twinUnit "b" "m").sourceKey := by decide
  exact ⟨s, hs, hu, hlast, (last_unit_found hs hu hlast).1⟩

/-- The source path of the first unit is its own, but its entry, its record and its number are
those of the second, which is spelled alike. -/
theorem same_spelling_overwrites : ∃ s, load twins .default ⟨"/w"⟩ = .ok s ∧
    s.units = twinUnit "a" "m" :: [twinUnit "b" "m", twinUnit "b" "n"] ∧
    (∀ v ∈ [twinUnit "b" "m", twinUnit "b" "n"],
      v.sourcePath ≠ (twinUnit "a" "m").sourcePath) ∧
    s.index.entry? "m.c" ≠
      some ⟨"m.c", ((twinUnit "a" "m").read (.still twins) .default).usages⟩ ∧
    (∃ u ∈ ((twinUnit "a" "m").read (.still twins) .default).usages,
      u ∉ s.index.query u.declaredPath) ∧
    (CommandLine.unitView twins s.index (twinUnit "a" "m")).usages = 2 ∧
    ((twinUnit "a" "m").read (.still twins) .default).usages.length = 1 := by
  obtain ⟨s, hs, hu⟩ := load_twins
  obtain ⟨-, -, hi⟩ := load_eq_ok hs
  rw [hu] at hi
  refine ⟨s, hs, hu, by decide, ?_, ?_, ?_, ?_⟩
  · rw [hi]
    decide +kernel
  · rw [hi]
    decide +kernel
  · rw [hi]
    decide +kernel
  · decide +kernel

end StackUsage.Snapshot

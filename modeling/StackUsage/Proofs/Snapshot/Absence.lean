import StackUsage.Proofs.Resolution
import StackUsage.Proofs.Snapshot

/-! When a snapshot is empty because no manifest was read. Nothing is said if the manifest is
absent: nothing stands at its path, or a link to something that is not there. Nothing is said either
of a link whose target cannot be reached for another reason, such as a loop of links or a file in
the place of a directory, nor of a path with a zero byte. Every other refusal is a failure with its
reason: of the link itself, of reading the text, and of what the text says. -/

namespace StackUsage

namespace Manifest

/-! ### Contents that are refused -/

theorem exists_error_of_mapM {α β ε : Type} {f : α → Except ε β} {l : List α} {a : α}
    {failure : ε} (ha : a ∈ l) (hf : f a = .error failure) :
    ∃ b ∈ l, ∃ first, f b = .error first ∧ l.mapM f = .error first := by
  induction l with
  | nil => cases ha
  | cons b rest ih =>
    rw [List.mapM_cons]
    cases hb : f b with
    | error first => exact ⟨b, List.mem_cons_self, first, hb, rfl⟩
    | ok value =>
      have later : a ∈ rest := by
        rcases List.mem_cons.1 ha with rfl | later
        · cases hf.symm.trans hb
        · exact later
      obtain ⟨c, hc, first, fails, all⟩ := ih later
      refine ⟨c, List.mem_cons_of_mem b hc, first, fails, ?_⟩
      rw [all]
      rfl

/-- One command without an invocation spoils the manifest. -/
theorem parse_of_bare {text : String} {entries : List Entry} {e : Entry}
    (decoded : entries? text = some entries) (he : e ∈ entries) (command : e.command = none)
    (arguments : e.arguments = none) :
    ∃ index file, parse text = .error (.noInvocation index file) := by
  obtain ⟨n, hn, rfl⟩ := List.mem_iff_getElem.1 he
  have place : (entries[n], n) ∈ entries.zipIdx := List.mem_zipIdx_iff_getElem?.2 (by simp [hn])
  have bare : entries[n].command? n = .error (.noInvocation n entries[n].file) := by
    simp only [Entry.command?, command, arguments]
  obtain ⟨⟨other, index⟩, -, first, fails, all⟩ :=
    exists_error_of_mapM (f := fun entry => Entry.command? entry.1 entry.2) place bare
  refine ⟨index, other.file, ?_⟩
  rw [parse, decoded]
  refine all.trans ?_
  dsimp only [Entry.command?] at fails
  split at fails <;> cases fails
  rfl

end Manifest

namespace Snapshot

open Resolution (linkTarget resolve)

/-! ### Manifests that are not read -/

/-- The manifest was read and understood, and the units are those that it names. -/
def FromManifest (t : Tree) (config : Config) (s : Snapshot) : Prop :=
  ∃ target text commands, s.manifest.path? = some target ∧ t.readText target = .ok text ∧
    Manifest.parse text = .ok commands ∧
    s.units = Manifest.units commands (Manifest.directory target) config.reportExtension

/-- There is no manifest: nothing stands at its path, or a link to something that is not there. -/
def Absent (t : Tree) (p : Path) : Prop :=
  t.readLink p = .error .notFound ∨
    ∃ link, t.readLink p = .ok link ∧ t.find (linkTarget p link) = .error .notFound

/-- The manifest cannot be reached for another reason, and this is not told: its path has a zero
byte, or it is a link, and the lookup of what that stands for is refused. -/
def Overlooked (t : Tree) (p : Path) : Prop :=
  '\x00' ∈ p.chars ∨ ∃ link fault, t.readLink p = .ok link ∧
    t.find (linkTarget p link) = .error fault ∧ fault ≠ .notFound

variable {t : Tree} {config : Config} {root : Path}

/-! ### Units -/

theorem unitsOf_unreached {manifest : Resolution} {target : Path} {fault : Tree.Fault}
    (hp : manifest.path? = some target) (hf : t.find target = .error fault) :
    unitsOf (.still t) config manifest = .ok [] := by
  simp only [unitsOf, hp, Disk.still_apply, Tree.present, hf, Except.isOk, Except.toBool]
  rfl

theorem unitsOf_found {manifest : Resolution} {target : Path} {found : Location × Tree.Node}
    (hp : manifest.path? = some target) (hf : t.find target = .ok found) :
    unitsOf (.still t) config manifest = (Manifest.read t target).map fun commands =>
      Manifest.units commands (Manifest.directory target) config.reportExtension := by
  simp only [unitsOf, hp, Disk.still_apply, Tree.present, hf, Except.isOk, Except.toBool]
  rfl

theorem find_of_readText {p : Path} {text : String} (h : t.readText p = .ok text) :
    ∃ found, t.find p = .ok found := by
  unfold Tree.readText at h
  cases hf : t.find p with
  | error fault =>
    rw [hf] at h
    cases h
  | ok found => exact ⟨found, rfl⟩

/-! ### Loading without a manifest -/

/-- Where the manifest's path leads to nothing that can be reached, the snapshot is empty. -/
theorem load_blank {manifest : Resolution}
    (hr : resolve t (location root config) = .ok manifest)
    (lost : ∀ target, manifest.path? = some target → ∃ fault, t.find target = .error fault) :
    load t config root = .ok ⟨root, manifest, [], .empty, []⟩ ∧
      ¬ FromManifest t config ⟨root, manifest, [], .empty, []⟩ := by
  have hu : unitsOf (.still t) config manifest = .ok [] := by
    cases hp : manifest.path? with
    | none => rw [unitsOf, hp]
    | some target =>
      obtain ⟨fault, hf⟩ := lost target hp
      exact unitsOf_unreached hp hf
  constructor
  · rw [load_eq hr, hu]
    rfl
  · rintro ⟨target, text, commands, hp, read, -⟩
    obtain ⟨found, hf⟩ := find_of_readText read
    obtain ⟨fault, he⟩ := lost target hp
    cases hf.symm.trans he

/-- Nothing is read of a manifest that is absent or overlooked. -/
theorem load_unread (h : Absent t (location root config) ∨ Overlooked t (location root config)) :
    ∃ manifest, load t config root = .ok ⟨root, manifest, [], .empty, []⟩ ∧
      ¬ FromManifest t config ⟨root, manifest, [], .empty, []⟩ := by
  have link : ∀ {link fault}, t.readLink (location root config) = .ok link →
      t.find (linkTarget (location root config) link) = .error fault →
      ∃ manifest, load t config root = .ok ⟨root, manifest, [], .empty, []⟩ ∧
        ¬ FromManifest t config ⟨root, manifest, [], .empty, []⟩ := by
    intro link fault read lost
    have hr : resolve t (location root config) =
        .ok (.real (linkTarget (location root config) link)) := by
      simp only [resolve, read]
    refine ⟨_, load_blank hr fun target hp => ?_⟩
    cases hp
    exact ⟨fault, lost⟩
  rcases h with (gone | ⟨target, read, lost⟩) | nul | ⟨target, fault, read, lost, -⟩
  · have hr : resolve t (location root config) = .ok .missing := by simp only [resolve, gone]
    exact ⟨_, load_blank hr nofun⟩
  · exact link read lost
  · have hr : resolve t (location root config) = .ok (.direct (location root config)) := by
      simp only [resolve, Tree.readLink_nul.2 nul]
    refine ⟨_, load_blank hr fun target hp => ?_⟩
    cases hp
    exact ⟨.nulInName, by simp only [Tree.find, Tree.entry, Tree.locate_nul nul]⟩
  · exact link read lost

/-- What the manifest's path leads to, unless it is absent or overlooked, or its link is refused. -/
theorem resolve_reached
    (h : ¬ (Absent t (location root config) ∨ Overlooked t (location root config)))
    {manifest : Resolution} (hr : resolve t (location root config) = .ok manifest) :
    ∃ target found, manifest.path? = some target ∧ t.find target = .ok found := by
  unfold resolve at hr
  split at hr
  · next link read =>
    cases hr
    cases hf : t.find (linkTarget (location root config) link) with
    | ok found => exact ⟨_, found, rfl, hf⟩
    | error fault =>
      refine absurd ?_ h
      by_cases gone : fault = .notFound
      · subst gone
        exact .inl (.inr ⟨link, read, hf⟩)
      · exact .inr (.inr ⟨link, fault, read, hf, gone⟩)
  · next gone => exact absurd (.inl (.inl gone)) h
  · next plain =>
    cases hr
    obtain ⟨found, hf⟩ := Tree.find_of_notLink plain
    exact ⟨_, found, rfl, hf⟩
  · next nul => exact absurd (.inr (.inl (Tree.readLink_nul.1 nul))) h
  · cases hr

/-- A snapshot of a manifest that was reached is made from it. -/
theorem fromManifest_of_found {s : Snapshot} (hs : load t config root = .ok s) {target : Path}
    {found : Location × Tree.Node} (hp : s.manifest.path? = some target)
    (hf : t.find target = .ok found) : FromManifest t config s := by
  obtain ⟨-, hu, -⟩ := load_eq_ok hs
  rw [unitsOf_found hp hf, Manifest.read] at hu
  cases read : t.readText target with
  | error fault =>
    rw [read] at hu
    cases hu
  | ok text =>
    rw [read] at hu
    dsimp only at hu
    cases parsed : Manifest.parse text with
    | error fault =>
      rw [parsed] at hu
      cases hu
    | ok commands =>
      rw [parsed] at hu
      exact ⟨target, text, commands, hp, read, parsed, (Except.ok.inj hu).symm⟩

/-- A manifest that is reached and cannot be used is a failure with the reason. -/
theorem load_unusable {manifest : Resolution} {target : Path} {found : Location × Tree.Node}
    {failure : Failure} (hr : resolve t (location root config) = .ok manifest)
    (hp : manifest.path? = some target) (hf : t.find target = .ok found)
    (unread : Manifest.read t target = .error failure) :
    load t config root = .error failure := by
  rw [load_eq hr, unitsOf_found hp hf, unread]
  rfl

/-- What loading tells of a manifest that it does not read. It is silent if the manifest is absent
or overlooked, and then the snapshot is empty. Everything else is a failure that says so: a link
that cannot be read, and a manifest that is reached but cannot be read, is no list of commands or
has a command without an invocation. -/
structure TellsFaults (t : Tree) (config : Config) (root : Path) : Prop where
  silent : (∃ s, load t config root = .ok s ∧ ¬ FromManifest t config s) ↔
    Absent t (location root config) ∨ Overlooked t (location root config)
  blank : ∀ s, load t config root = .ok s → ¬ FromManifest t config s →
    s.units = [] ∧ s.index = .empty ∧ s.warnings = []
  link : ∀ fault, t.readLink (location root config) = .error fault → fault ≠ .notFound →
    fault ≠ .notLink → fault ≠ .nulInName → load t config root = .error (.access fault)
  unreadable : ∀ manifest target found, resolve t (location root config) = .ok manifest →
    manifest.path? = some target → t.find target = .ok found →
      ∀ fault, t.readText target = .error fault →
        load t config root = .error (.manifest target (.access fault))
  notJson : ∀ manifest target found, resolve t (location root config) = .ok manifest →
    manifest.path? = some target → t.find target = .ok found →
      ∀ text, t.readText target = .ok text → Manifest.entries? text = none →
        load t config root = .error (.manifest target (.content .notJson))
  bare : ∀ manifest target found, resolve t (location root config) = .ok manifest →
    manifest.path? = some target → t.find target = .ok found →
      ∀ text, t.readText target = .ok text → ∀ entries, Manifest.entries? text = some entries →
        (∃ e ∈ entries, e.command = none ∧ e.arguments = none) →
          ∃ index file, load t config root =
            .error (.manifest target (.content (.noInvocation index file)))

/-- Loading is silent about a manifest that is absent or overlooked, and about no other. -/
theorem load_silent_iff (t : Tree) (config : Config) (root : Path) : TellsFaults t config root := by
  have unread : ∀ s, load t config root = .ok s → ¬ FromManifest t config s →
      Absent t (location root config) ∨ Overlooked t (location root config) := by
    intro s hs blank
    by_contra reached
    obtain ⟨target, found, hp, hf⟩ := resolve_reached reached (load_eq_ok hs).1
    exact blank (fromManifest_of_found hs hp hf)
  constructor
  case silent =>
    constructor
    · rintro ⟨s, hs, blank⟩
      exact unread s hs blank
    · intro h
      obtain ⟨manifest, hs, blank⟩ := load_unread h
      exact ⟨_, hs, blank⟩
  case blank =>
    intro s hs blank
    obtain ⟨manifest, he, -⟩ := load_unread (unread s hs blank)
    cases hs.symm.trans he
    exact ⟨rfl, rfl, rfl⟩
  case link =>
    intro fault hl gone plain nul
    rw [load, Resolution.resolve_of_fault hl gone plain nul]
    rfl
  case unreadable =>
    intro manifest target found hr hp hf fault refused
    exact load_unusable hr hp hf (by simp only [Manifest.read, refused])
  case notJson =>
    intro manifest target found hr hp hf text read alien
    exact load_unusable hr hp hf (by simp only [Manifest.read, read, Manifest.parse, alien])
  case bare =>
    rintro manifest target found hr hp hf text read entries decoded ⟨e, he, command, arguments⟩
    obtain ⟨index, file, parsed⟩ := Manifest.parse_of_bare decoded he command arguments
    exact ⟨index, file, load_unusable hr hp hf (by simp only [Manifest.read, read, parsed])⟩

/-! ### What may stand at the manifest's path -/

/-- A tree with one entry, at the path of the manifest. -/
def alone (node : Tree.Node) : Tree := ⟨[], [(["compile_commands.json".toList], node)]⟩

/-- A link to a directory that is not there. -/
def dangling : Tree := alone (.link ⟨"b/m.json"⟩)

/-- A manifest of one command without an invocation. -/
def bareText : String := "[\x7b\"directory\":\"/b\",\"file\":\"m.c\"\x7d]"

def spoiled : Tree := alone (.file (some bareText))

theorem load_silent_iff_alone :
    (∃ s, load dangling .default ⟨"/"⟩ = .ok s ∧ s.units = []) ∧
    load (alone .directory) .default ⟨"/"⟩ =
      .error (.manifest ⟨"/compile_commands.json"⟩ (.access .isDirectory)) ∧
    ∃ index file, load spoiled .default ⟨"/"⟩ =
      .error (.manifest ⟨"/compile_commands.json"⟩ (.content (.noInvocation index file))) := by
  refine ⟨?_, ?_, ?_⟩
  · have law := load_silent_iff dangling .default ⟨"/"⟩
    have absent : Absent dangling (location ⟨"/"⟩ .default) :=
      .inr ⟨⟨"b/m.json"⟩, by decide +kernel, by decide +kernel⟩
    obtain ⟨s, hs, unread⟩ := law.silent.2 (.inl absent)
    exact ⟨s, hs, (law.blank s hs unread).1⟩
  · have hr : resolve (alone .directory) (location ⟨"/"⟩ .default) =
        .ok (.direct ⟨"/compile_commands.json"⟩) := eq_ok_of_toOption (by decide +kernel)
    exact (load_silent_iff (alone .directory) .default ⟨"/"⟩).unreadable _ _
      (["compile_commands.json".toList], .directory) hr rfl (by decide +kernel) .isDirectory
      (by decide +kernel)
  · have hr : resolve spoiled (location ⟨"/"⟩ .default) =
        .ok (.direct ⟨"/compile_commands.json"⟩) := eq_ok_of_toOption (by decide +kernel)
    exact (load_silent_iff spoiled .default ⟨"/"⟩).bare _ _
      (["compile_commands.json".toList], .file (some bareText)) hr rfl (by decide +kernel) bareText
      (by decide +kernel) [⟨"/b", none, none, "m.c"⟩] (by decide +kernel)
      ⟨_, List.mem_singleton_self _, rfl, rfl⟩

/-- A manifest that is a link to itself. -/
def looped : Tree := alone (.link ⟨"compile_commands.json"⟩)

/-- It is not absent, since its lookup runs in a loop, and yet nothing is read and nothing said. -/
theorem looped_silent :
    (∃ s, load looped .default ⟨"/"⟩ = .ok s ∧ ¬ FromManifest looped .default s ∧ s.units = [] ∧
      s.index = .empty ∧ s.warnings = []) ∧
    looped.find ⟨"/compile_commands.json"⟩ = .error .tooManyLinks ∧
    ¬ Absent looped ⟨"/compile_commands.json"⟩ := by
  have read : looped.readLink ⟨"/compile_commands.json"⟩ = .ok ⟨"compile_commands.json"⟩ := by
    decide +kernel
  have target : linkTarget ⟨"/compile_commands.json"⟩ ⟨"compile_commands.json"⟩ =
      ⟨"/compile_commands.json"⟩ := by decide +kernel
  have loop : looped.find ⟨"/compile_commands.json"⟩ = .error .tooManyLinks := by decide +kernel
  refine ⟨?_, loop, ?_⟩
  · have overlooked : Overlooked looped (location ⟨"/"⟩ .default) :=
      .inr ⟨_, _, read, (congrArg _ target).trans loop, nofun⟩
    obtain ⟨manifest, hs, unread⟩ := load_unread (.inr overlooked)
    exact ⟨_, hs, unread, rfl, rfl, rfl⟩
  · rintro (gone | ⟨link, read', gone⟩)
    · cases read.symm.trans gone
    · cases read.symm.trans read'
      rw [target, loop] at gone
      cases gone

end Snapshot

end StackUsage

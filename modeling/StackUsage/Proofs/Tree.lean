import StackUsage.Snapshot
import StackUsage.Tree.Edit

/-! Trees that differ in the contents of some files only. Every lookup ends at the same place on
both, so real paths, link targets and what is present stay the same, and only the texts of the
rewritten files change. A report that is none of them is read as before. -/

namespace StackUsage

namespace Tree

/-- Only the contents of files at changed locations differ. -/
structure Rewritten (changed : Location → Prop) (t t' : Tree) : Prop where
  workdir : t'.workdir = t.workdir
  node : ∀ loc, t'.node? loc = t.node? loc ∨
    changed loc ∧ ∃ a b, t.node? loc = some (.file a) ∧ t'.node? loc = some (.file b)

/-- The two lookups end alike: at the same place, and with the same node there unless that is a
file at a changed location. -/
inductive Alike (changed : Location → Prop) : Except Fault Spot → Except Fault Spot → Prop
  | same (found : Except Fault Spot) : Alike changed found found
  | rewritten {loc : Location} (a b : Option String) : changed loc →
    Alike changed (.ok (.entry loc (.file a))) (.ok (.entry loc (.file b)))

variable {changed : Location → Prop} {t t' : Tree}

theorem lookup_filter_ne (loc l : Location) (nodes : List (Location × Node)) :
    (nodes.filter (·.1 ≠ loc)).lookup l = if l = loc then none else nodes.lookup l := by
  induction nodes with
  | nil => simp
  | cons entry rest ih =>
    by_cases he : entry.1 = loc
    · rw [List.filter_cons_of_neg (by simp [he]), ih, List.lookup_cons, he]
      by_cases hl : l = loc
      · simp [hl]
      · simp [hl, beq_false_of_ne hl]
    · rw [List.filter_cons_of_pos (by simp [he]), List.lookup_cons, ih, List.lookup_cons]
      by_cases hl : l = loc
      · simp [hl, beq_false_of_ne (Ne.symm he)]
      · simp [hl]

theorem node?_put {loc : Location} (inside : loc ≠ []) (node : Node) (l : Location) :
    (t.put loc node).node? l = if l = loc then some node else t.node? l := by
  simp only [node?, put, List.lookup_append, lookup_filter_ne, List.lookup_cons]
  by_cases hl : l = loc
  · simp [hl, inside]
  · simp [hl, beq_false_of_ne hl]

/-- Putting a file in the place of a file is such a change. -/
theorem rewritten_put {loc : Location} {a : Option String} (h : t.node? loc = some (.file a))
    (b : Option String) : Rewritten (· = loc) t (t.put loc (.file b)) where
  workdir := rfl
  node l := by
    have inside : loc ≠ [] := by
      rintro rfl
      cases h
    rw [node?_put inside]
    by_cases hl : l = loc
    · subst hl
      exact .inr ⟨rfl, a, b, h, if_pos rfl⟩
    · exact .inl (if_neg hl)

/-! ### Lookups -/

theorem Rewritten.walkWith (h : Rewritten changed t t') (mode : Mode)
    {follow follow' : Location → List Component → Except Fault Spot}
    (hf : ∀ loc steps, Alike changed (follow loc steps) (follow' loc steps)) (loc : Location)
    (steps : List Component) :
    Alike changed (t.walkWith mode follow loc steps) (t'.walkWith mode follow' loc steps) := by
  induction steps generalizing loc with
  | nil => exact .same _
  | cons step rest ih =>
    cases step with
    | root => exact ih []
    | here => exact ih loc
    | up => exact ih loc.dropLast
    | name text =>
      simp only [Tree.walkWith]
      split
      · exact .same _
      · obtain he | ⟨hc, a, b, ha, hb⟩ := h.node (loc ++ [text])
        · rw [he]
          cases t.node? (loc ++ [text]) with
          | none => exact .same _
          | some node =>
            cases node with
            | directory =>
              dsimp only
              split
              · exact .same _
              · exact ih (loc ++ [text])
            | file content => exact .same _
            | link target =>
              dsimp only
              split
              · exact .same _
              · split
                · exact .same _
                · exact hf loc (target.steps ++ rest)
        · rw [ha, hb]
          dsimp only
          split
          · exact .rewritten a b hc
          · exact .same _

theorem Rewritten.walk (h : Rewritten changed t t') (mode : Mode) (links : Nat) (loc : Location)
    (steps : List Component) :
    Alike changed (t.walk mode links loc steps) (t'.walk mode links loc steps) := by
  induction links generalizing loc steps with
  | zero => exact h.walkWith mode (fun _ _ => .same _) loc steps
  | succ links ih => exact h.walkWith mode ih loc steps

theorem Rewritten.locate (h : Rewritten changed t t') (mode : Mode) (p : Path) :
    Alike changed (t.locate mode p) (t'.locate mode p) := by
  simp only [Tree.locate, h.workdir]
  split
  · exact .same _
  · split
    · exact .same _
    · split
      · exact .same _
      · exact h.walk mode maxLinks t.workdir p.steps

theorem Rewritten.entry (h : Rewritten changed t t') (mode : Mode) (p : Path) :
    t'.entry mode p = t.entry mode p ∨ ∃ loc a b, changed loc ∧
      t.entry mode p = .ok (loc, .file a) ∧ t'.entry mode p = .ok (loc, .file b) := by
  have located := h.locate mode p
  unfold Tree.entry
  generalize t.locate mode p = found at located ⊢
  generalize t'.locate mode p = found' at located ⊢
  cases located with
  | same => exact .inl rfl
  | rewritten a b hc => exact .inr ⟨_, a, b, hc, rfl, rfl⟩

/-! ### Reads -/

theorem Rewritten.canonicalize (h : Rewritten changed t t') (p : Path) :
    t'.canonicalize p = t.canonicalize p := by
  unfold Tree.canonicalize
  obtain he | ⟨loc, a, b, -, ha, hb⟩ := h.entry .real p
  · rw [he]
  · rw [ha, hb]
    rfl

theorem Rewritten.readLink (h : Rewritten changed t t') (p : Path) :
    t'.readLink p = t.readLink p := by
  unfold Tree.readLink
  obtain he | ⟨loc, a, b, -, ha, hb⟩ := h.entry .name p
  · rw [he]
  · rw [ha, hb]

theorem Rewritten.present (h : Rewritten changed t t') (p : Path) : t'.present p = t.present p := by
  unfold Tree.present Tree.find
  obtain he | ⟨loc, a, b, -, ha, hb⟩ := h.entry .target p
  · rw [he]
  · rw [ha, hb]
    rfl

/-- Whether the path denotes a file at one of the locations, links followed. -/
def Denotes (t : Tree) (p : Path) (locs : Location → Prop) : Prop :=
  ∃ loc text, t.find p = .ok (loc, .file text) ∧ locs loc

theorem Rewritten.readText (h : Rewritten changed t t') {p : Path} (hp : ¬ t.Denotes p changed) :
    t'.readText p = t.readText p := by
  unfold Tree.readText Tree.find
  obtain he | ⟨loc, a, b, hc, ha, -⟩ := h.entry .target p
  · rw [he]
  · exact absurd ⟨loc, a, ha, hc⟩ hp

end Tree

/-! ### Reports and the manifest -/

open StackUsage.Tree (Rewritten)

variable {changed : Location → Prop} {t t' : Tree}

theorem Resolution.resolve_rewritten (h : Rewritten changed t t') (p : Path) :
    Resolution.resolve t' p = Resolution.resolve t p := by
  simp only [Resolution.resolve, h.readLink]

theorem Manifest.read_rewritten (h : Rewritten changed t t') {p : Path}
    (hp : ¬ t.Denotes p changed) : Manifest.read t' p = Manifest.read t p := by
  simp only [Manifest.read, h.readText hp]

theorem Report.realName_rewritten (h : Rewritten changed t t') (config : Config) (ctx : Context)
    (declared : String) : realName t' config ctx declared = realName t config ctx declared := by
  simp only [realName, h.canonicalize]

theorem Snapshot.unitsOf_rewritten (h : Rewritten changed t t') (config : Config)
    {manifest : Resolution}
    (hm : ∀ target, manifest.path? = some target → ¬ t.Denotes target changed) :
    unitsOf (.still t') config manifest = unitsOf (.still t) config manifest := by
  unfold unitsOf
  cases hp : manifest.path? with
  | none => rfl
  | some target =>
    have present : (Disk.still t' 1).present target = (Disk.still t 1).present target :=
      h.present target
    have read : Manifest.read (Disk.still t' 2) target = Manifest.read (Disk.still t 2) target :=
      Manifest.read_rewritten h (hm target hp)
    dsimp only
    rw [present, read]

/-- A report whose file was not rewritten has the records that it had. -/
theorem ReportUnit.read_rewritten (h : Rewritten changed t t') (config : Config)
    {unit : ReportUnit} (hu : ¬ t.Denotes unit.reportPath changed) :
    unit.read (.still t') config = unit.read (.still t) config := by
  simp only [ReportUnit.read, Report.read, Report.normalize, Disk.after_still, Disk.still_apply,
    h.canonicalize, h.readText hu, Report.realName_rewritten h]

end StackUsage

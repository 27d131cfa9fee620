import Mathlib.Data.List.Basic
import StackUsage.Tree

/-! Lookups that succeed. A walk that ends at an entry is a derivation, which counts the links it
follows; a lookup succeeds just when there is one with as many links as are allowed. Walks can be
cut where a directory is reached and put together again, and dots on the way do not matter. -/

namespace StackUsage.Tree

variable {t : Tree}

/-! ### Lookups -/

/-- A lookup that ends somewhere is of a path that the system takes, and walks along it. -/
theorem locate_ok {mode : Mode} {p : Path} {spot : Spot} (h : t.locate mode p = .ok spot) :
    '\x00' ∉ p.chars ∧ p.chars ≠ [] ∧ (mode ≠ .real → p.spelling.utf8ByteSize < maxPathBytes) ∧
      t.walk mode maxLinks t.workdir p.steps = .ok spot := by
  unfold locate at h
  split at h
  · cases h
  · next nul =>
    split at h
    · cases h
    · next ne =>
      split at h
      · cases h
      · next short =>
        refine ⟨by simpa using nul, ne, fun hm => ?_, h⟩
        exact Nat.lt_of_not_le fun hb => short ⟨hm, hb⟩

theorem entry_ok {mode : Mode} {p : Path} {loc : Location} {node : Node}
    (h : t.entry mode p = .ok (loc, node)) : t.locate mode p = .ok (.entry loc node) := by
  unfold entry at h
  split at h
  · cases h
  · cases h
  · next hl =>
    cases h
    exact hl

theorem isDirectory_iff {p : Path} :
    t.isDirectory p = true ↔ ∃ loc, t.find p = .ok (loc, .directory) := by
  unfold isDirectory
  constructor
  · intro h
    split at h
    · next loc hf => exact ⟨loc, hf⟩
    · cases h
  · rintro ⟨loc, hf⟩
    rw [hf]

/-! ### Walks that end at an entry -/

/-- The steps lead from the directory at `loc` to the entry, over so many links. -/
inductive Leads (t : Tree) : Location → List Component → Nat → Location → Node → Prop
  | done (loc : Location) : Leads t loc [] 0 loc .directory
  | root {loc rest n l node} : Leads t [] rest n l node → Leads t loc (.root :: rest) n l node
  | here {loc rest n l node} : Leads t loc rest n l node → Leads t loc (.here :: rest) n l node
  | up {loc : Location} {rest n l node} : Leads t loc.dropLast rest n l node →
    Leads t loc (.up :: rest) n l node
  | directory {loc : Location} {text rest n l node} : byteCount text ≤ maxNameBytes →
    t.node? (loc ++ [text]) = some .directory → Leads t (loc ++ [text]) rest n l node →
    Leads t loc (.name text :: rest) n l node
  | file {loc : Location} {text content} : byteCount text ≤ maxNameBytes →
    t.node? (loc ++ [text]) = some (.file content) →
    Leads t loc [.name text] 0 (loc ++ [text]) (.file content)
  | link {loc : Location} {text rest n l node} {target : Path} : byteCount text ≤ maxNameBytes →
    t.node? (loc ++ [text]) = some (.link target) → target.chars ≠ [] →
    Leads t loc (target.steps ++ rest) n l node → Leads t loc (.name text :: rest) (n + 1) l node

theorem walk_of_leads {loc l : Location} {steps : List Component} {n k : Nat} {node : Node}
    (h : Leads t loc steps n l node) (hk : n ≤ k) :
    t.walk .target k loc steps = .ok (.entry l node) := by
  induction h generalizing k with
  | done => cases k <;> rfl
  | root _ ih => cases k <;> exact ih hk
  | here _ ih => cases k <;> exact ih hk
  | up _ ih => cases k <;> exact ih hk
  | directory short hn _ ih =>
    have := ih hk
    cases k <;>
      simpa [walk, walkWith, outOfReach, hn, Nat.not_lt.2 short] using this
  | file short hn => cases k <;> simp [walk, walkWith, outOfReach, hn, Nat.not_lt.2 short]
  | link short hn ne _ ih =>
    cases k with
    | zero => cases hk
    | succ k =>
      have := ih (Nat.le_of_succ_le_succ hk)
      simpa [walk, walkWith, outOfReach, hn, Nat.not_lt.2 short, ne] using this

theorem leads_of_walkWith {follow : Location → List Component → Except Fault Spot} {k : Nat}
    (hf : ∀ loc steps l node, follow loc steps = .ok (.entry l node) →
      ∃ n, n + 1 ≤ k ∧ Leads t loc steps n l node)
    {loc l : Location} {steps : List Component} {node : Node}
    (h : t.walkWith .target follow loc steps = .ok (.entry l node)) :
    ∃ n ≤ k, Leads t loc steps n l node := by
  induction steps generalizing loc with
  | nil =>
    cases h
    exact ⟨0, Nat.zero_le k, .done _⟩
  | cons step rest ih =>
    cases step with
    | root =>
      obtain ⟨n, hn, hl⟩ := ih h
      exact ⟨n, hn, .root hl⟩
    | here =>
      obtain ⟨n, hn, hl⟩ := ih h
      exact ⟨n, hn, .here hl⟩
    | up =>
      obtain ⟨n, hn, hl⟩ := ih h
      exact ⟨n, hn, .up hl⟩
    | name text =>
      simp only [walkWith, outOfReach, reduceCtorEq, decide_false, Bool.false_and, Bool.or_false,
        decide_eq_true_eq, Bool.and_false, Bool.false_eq_true, if_false, and_false] at h
      split at h
      · cases h
      · next long =>
        have short := Nat.not_lt.1 long
        cases hn : t.node? (loc ++ [text]) with
        | none =>
          rw [hn] at h
          dsimp only at h
          split at h <;> cases h
        | some found =>
          rw [hn] at h
          cases found with
          | directory =>
            obtain ⟨n, hk, hl⟩ := ih h
            exact ⟨n, hk, .directory short hn hl⟩
          | file content =>
            dsimp only at h
            split at h
            · next hr =>
              cases h
              subst hr
              exact ⟨0, Nat.zero_le k, .file short hn⟩
            · cases h
          | link target =>
            dsimp only at h
            split at h
            · cases h
            · next ne =>
              obtain ⟨n, hk, hl⟩ := hf _ _ _ _ h
              exact ⟨n + 1, hk, .link short hn ne hl⟩

theorem leads_of_walk {k : Nat} {loc l : Location} {steps : List Component} {node : Node}
    (h : t.walk .target k loc steps = .ok (.entry l node)) :
    ∃ n ≤ k, Leads t loc steps n l node := by
  induction k generalizing loc steps l node with
  | zero => exact leads_of_walkWith (fun _ _ _ _ hf => by cases hf) h
  | succ k ih =>
    refine leads_of_walkWith (fun loc steps l node hf => ?_) h
    obtain ⟨n, hn, hl⟩ := ih hf
    exact ⟨n, Nat.succ_le_succ hn, hl⟩

/-- What a path denotes, links followed. -/
theorem find_iff {p : Path} {l : Location} {node : Node} :
    t.find p = .ok (l, node) ↔
      '\x00' ∉ p.chars ∧ p.chars ≠ [] ∧ p.spelling.utf8ByteSize < maxPathBytes ∧
        ∃ n ≤ maxLinks, Leads t t.workdir p.steps n l node := by
  constructor
  · intro h
    obtain ⟨nul, ne, bytes, walk⟩ := locate_ok (entry_ok h)
    exact ⟨nul, ne, bytes (by decide), leads_of_walk walk⟩
  · rintro ⟨nul, ne, bytes, n, hn, hl⟩
    have located : t.locate .target p = .ok (.entry l node) := by
      rw [locate, if_neg (by simpa using nul), if_neg ne, if_neg (by simpa using bytes)]
      exact walk_of_leads hl hn
    rw [find, entry, located]

/-! ### Cutting walks -/

namespace Leads

variable {loc d l : Location} {a b : List Component} {m n : Nat} {node : Node}

theorem append (h : Leads t loc a m d .directory) (h' : Leads t d b n l node) :
    Leads t loc (a ++ b) (m + n) l node := by
  generalize hd : Node.directory = reached at h
  induction h with
  | done => simpa using h'
  | root _ ih => exact .root (ih h' hd)
  | here _ ih => exact .here (ih h' hd)
  | up _ ih => exact .up (ih h' hd)
  | directory short hn _ ih => exact .directory short hn (ih h' hd)
  | file => cases hd
  | link short hn ne _ ih =>
    have := ih h' hd
    rw [List.append_assoc] at this
    rw [Nat.add_right_comm]
    exact .link short hn ne this

/-- A walk goes on from where its first steps lead. -/
theorem after (h : Leads t loc a m d .directory) (h' : Leads t loc (a ++ b) n l node) :
    ∃ k, n = m + k ∧ Leads t d b k l node := by
  generalize hd : Node.directory = reached at h
  induction h generalizing n with
  | done => exact ⟨n, (Nat.zero_add n).symm, h'⟩
  | root _ ih =>
    cases h' with
    | root h' => exact ih h' hd
  | here _ ih =>
    cases h' with
    | here h' => exact ih h' hd
  | up _ ih =>
    cases h' with
    | up h' => exact ih h' hd
  | @directory _ _ rest _ _ _ _ hn _ ih =>
    rw [List.cons_append] at h'
    generalize hr : rest ++ b = others at h' ih
    cases h' with
    | directory _ _ h' => exact ih h' hd
    | file _ hn' => cases hn.symm.trans hn'
    | link _ hn' => cases hn.symm.trans hn'
  | file => cases hd
  | @link _ _ rest _ _ _ _ _ hn _ _ ih =>
    rw [List.cons_append] at h'
    generalize hr : rest ++ b = others at h'
    cases h' with
    | directory _ hn' => cases hn.symm.trans hn'
    | file _ hn' => cases hn.symm.trans hn'
    | link _ hn' _ h' =>
      cases hn.symm.trans hn'
      rw [← hr, ← List.append_assoc] at h'
      obtain ⟨k, hk, hl⟩ := ih h' hd
      exact ⟨k, by omega, hl⟩

/-- All steps but the last lead to a directory. -/
theorem split (h : Leads t loc (a ++ b) n l node) (hb : b ≠ []) :
    ∃ d m k, n = m + k ∧ Leads t loc a m d .directory ∧ Leads t d b k l node := by
  generalize hs : a ++ b = steps at h
  induction h generalizing a with
  | done loc => simp_all
  | root h ih =>
    cases a with
    | nil =>
      cases hs
      exact ⟨_, 0, _, (Nat.zero_add _).symm, .done _, .root h⟩
    | cons step a =>
      cases hs
      obtain ⟨d, m, k, hk, first, second⟩ := ih rfl
      exact ⟨d, m, k, hk, .root first, second⟩
  | here h ih =>
    cases a with
    | nil =>
      cases hs
      exact ⟨_, 0, _, (Nat.zero_add _).symm, .done _, .here h⟩
    | cons step a =>
      cases hs
      obtain ⟨d, m, k, hk, first, second⟩ := ih rfl
      exact ⟨d, m, k, hk, .here first, second⟩
  | up h ih =>
    cases a with
    | nil =>
      cases hs
      exact ⟨_, 0, _, (Nat.zero_add _).symm, .done _, .up h⟩
    | cons step a =>
      cases hs
      obtain ⟨d, m, k, hk, first, second⟩ := ih rfl
      exact ⟨d, m, k, hk, .up first, second⟩
  | directory short hn h ih =>
    cases a with
    | nil =>
      cases hs
      exact ⟨_, 0, _, (Nat.zero_add _).symm, .done _, .directory short hn h⟩
    | cons step a =>
      cases hs
      obtain ⟨d, m, k, hk, first, second⟩ := ih rfl
      exact ⟨d, m, k, hk, .directory short hn first, second⟩
  | file short hn =>
    cases a with
    | nil =>
      cases hs
      exact ⟨_, 0, _, (Nat.zero_add _).symm, .done _, .file short hn⟩
    | cons step a =>
      cases a <;> simp_all
  | link short hn ne h ih =>
    cases a with
    | nil =>
      cases hs
      exact ⟨_, 0, _, (Nat.zero_add _).symm, .done _, .link short hn ne h⟩
    | cons step a =>
      cases hs
      obtain ⟨d, m, k, hk, first, second⟩ := ih (List.append_assoc ..)
      exact ⟨d, m + 1, k, by omega, .link short hn ne first, second⟩

/-- Dots on the way make no difference. -/
theorem filter_here (h : Leads t loc a n l node) : Leads t loc (a.filter (· ≠ .here)) n l node := by
  induction a generalizing loc n with
  | nil => exact h
  | cons step rest ih =>
    by_cases hs : step = .here
    · subst hs
      rw [List.filter_cons_of_neg (by simp)]
      cases h with
      | here h => exact ih h
    · rw [List.filter_cons_of_pos (by simpa using hs)]
      by_cases hr : rest = []
      · subst hr
        exact h
      · obtain ⟨d, m, k, rfl, first, second⟩ := split (a := [step]) h hr
        exact first.append (ih second)

/-- A walk that ends at a file ends with a name. -/
theorem last_name {content : Option String} (h : Leads t loc a n l (.file content)) :
    ∃ init text, a = init ++ [.name text] := by
  generalize hf : Node.file content = found at h
  induction h with
  | done => cases hf
  | root _ ih | here _ ih | up _ ih | directory _ _ _ ih =>
    obtain ⟨init, text, rfl⟩ := ih hf
    exact ⟨_ :: init, text, rfl⟩
  | file => exact ⟨[], _, rfl⟩
  | @link _ _ rest _ _ _ target _ _ _ _ ih =>
    obtain ⟨init, text, he⟩ := ih hf
    rcases List.eq_nil_or_concat' rest with rfl | ⟨rest, last, rfl⟩
    · exact ⟨[], _, rfl⟩
    · rw [← List.append_assoc] at he
      obtain ⟨-, same⟩ := List.append_inj' he rfl
      cases same
      exact ⟨_ :: rest, text, rfl⟩

end Leads

/-! ### Links that are read -/

/-- The steps lead to a link that they name last, over so many other links. -/
def NamesLink (t : Tree) (loc : Location) (steps : List Component) (n : Nat) (target : Path) :
    Prop :=
  ∃ init text d, steps = init ++ [.name text] ∧ Leads t loc init n d .directory ∧
    byteCount text ≤ maxNameBytes ∧ t.node? (d ++ [text]) = some (.link target)

theorem namesLink_of_walkWith {follow : Location → List Component → Except Fault Spot} {k : Nat}
    {target : Path}
    (hf : ∀ loc steps l, follow loc steps = .ok (.entry l (.link target)) →
      ∃ n, n + 1 ≤ k ∧ NamesLink t loc steps n target)
    {loc l : Location} {steps : List Component}
    (h : t.walkWith .name follow loc steps = .ok (.entry l (.link target))) :
    ∃ n ≤ k, NamesLink t loc steps n target := by
  induction steps generalizing loc with
  | nil => cases h
  | cons step rest ih =>
    cases step with
    | root =>
      obtain ⟨n, hn, init, text, d, rfl, hl, found⟩ := ih h
      exact ⟨n, hn, .root :: init, text, d, rfl, .root hl, found⟩
    | here =>
      obtain ⟨n, hn, init, text, d, rfl, hl, found⟩ := ih h
      exact ⟨n, hn, .here :: init, text, d, rfl, .here hl, found⟩
    | up =>
      obtain ⟨n, hn, init, text, d, rfl, hl, found⟩ := ih h
      exact ⟨n, hn, .up :: init, text, d, rfl, .up hl, found⟩
    | name text =>
      simp only [walkWith, outOfReach, reduceCtorEq, decide_false, Bool.false_and, Bool.or_false,
        decide_eq_true_eq, Bool.and_false, Bool.false_eq_true, if_false, and_true] at h
      split at h
      · cases h
      · next long =>
        have short := Nat.not_lt.1 long
        cases hn : t.node? (loc ++ [text]) with
        | none =>
          rw [hn] at h
          dsimp only at h
          split at h <;> cases h
        | some found =>
          rw [hn] at h
          cases found with
          | directory =>
            obtain ⟨n, hk, init, last, d, rfl, hl, found⟩ := ih h
            exact ⟨n, hk, .name text :: init, last, d, rfl, .directory short hn hl, found⟩
          | file content =>
            dsimp only at h
            split at h <;> cases h
          | link next =>
            dsimp only at h
            split at h
            · next hr =>
              cases h
              subst hr
              exact ⟨0, Nat.zero_le k, [], text, loc, rfl, .done loc, short, hn⟩
            · next more =>
              split at h
              · cases h
              · next ne =>
                obtain ⟨n, hk, init, last, d, he, hl, found⟩ := hf _ _ _ h
                rcases List.eq_nil_or_concat' rest with rfl | ⟨rest, step, rfl⟩
                · exact absurd rfl more
                · rw [← List.append_assoc] at he
                  obtain ⟨rfl, same⟩ := List.append_inj' he rfl
                  cases same
                  exact ⟨n + 1, hk, .name text :: rest, last, d, rfl, .link short hn ne hl, found⟩

theorem namesLink_of_walk {k : Nat} {loc l : Location} {steps : List Component} {target : Path}
    (h : t.walk .name k loc steps = .ok (.entry l (.link target))) :
    ∃ n ≤ k, NamesLink t loc steps n target := by
  induction k generalizing loc steps l with
  | zero => exact namesLink_of_walkWith (fun _ _ _ hf => by cases hf) h
  | succ k ih =>
    refine namesLink_of_walkWith (fun loc steps l hf => ?_) h
    obtain ⟨n, hn, hl⟩ := ih hf
    exact ⟨n, Nat.succ_le_succ hn, hl⟩

/-- A path whose link is read names it last. -/
theorem readLink_ok {p target : Path} (h : t.readLink p = .ok target) :
    ∃ n ≤ maxLinks, NamesLink t t.workdir p.steps n target := by
  unfold readLink at h
  split at h
  · cases h
  · next l next he =>
    cases h
    exact namesLink_of_walk (locate_ok (entry_ok he)).2.2.2
  · cases h

/-- Following the link goes on with the steps of its target. -/
theorem NamesLink.follow {loc l : Location} {steps : List Component} {m n : Nat} {target : Path}
    {node : Node} (h : NamesLink t loc steps m target) (hl : Leads t loc steps n l node) :
    ∃ init text d k, steps = init ++ [.name text] ∧ Leads t loc init m d .directory ∧
      n = m + (k + 1) ∧ Leads t d target.steps k l node := by
  obtain ⟨init, text, d, rfl, before, -, hn⟩ := h
  obtain ⟨k, rfl, last⟩ := before.after hl
  cases last with
  | directory _ hn' => cases hn.symm.trans hn'
  | file _ hn' => cases hn.symm.trans hn'
  | link _ hn' _ last =>
    cases hn.symm.trans hn'
    rw [List.append_nil] at last
    exact ⟨init, text, d, _, rfl, before, rfl, last⟩

/-! ### Entries that are no links -/

/-- To the last name and to what that stands for, a walk goes the same way, unless the last name is
a link. -/
theorem walkWith_name {follow follow' : Location → List Component → Except Fault Spot}
    (hf : ∀ loc steps, follow loc steps = follow' loc steps ∨
      ∃ l target, follow loc steps = .ok (.entry l (.link target)))
    (loc : Location) (steps : List Component) :
    t.walkWith .name follow loc steps = t.walkWith .target follow' loc steps ∨
      ∃ l target, t.walkWith .name follow loc steps = .ok (.entry l (.link target)) := by
  induction steps generalizing loc with
  | nil => exact .inl rfl
  | cons step rest ih =>
    cases step with
    | root => exact ih []
    | here => exact ih loc
    | up => exact ih loc.dropLast
    | name text =>
      simp only [walkWith, outOfReach, reduceCtorEq, decide_false, Bool.false_and, Bool.or_false,
        Bool.and_false, Bool.false_eq_true, if_false, and_true, and_false]
      split
      · exact .inl rfl
      · cases t.node? (loc ++ [text]) with
        | none => exact .inl rfl
        | some node =>
          cases node with
          | directory => exact ih (loc ++ [text])
          | file content => exact .inl rfl
          | link target =>
            dsimp only
            split
            · exact .inr ⟨_, _, rfl⟩
            · split
              · exact .inl rfl
              · exact hf loc (target.steps ++ rest)

theorem walk_name (k : Nat) (loc : Location) (steps : List Component) :
    t.walk .name k loc steps = t.walk .target k loc steps ∨
      ∃ l target, t.walk .name k loc steps = .ok (.entry l (.link target)) := by
  induction k generalizing loc steps with
  | zero => exact walkWith_name (fun _ _ => .inl rfl) loc steps
  | succ k ih => exact walkWith_name ih loc steps

/-- No walk is refused because of a zero byte or because something is no link. -/
theorem fault_walkWith {mode : Mode} {follow : Location → List Component → Except Fault Spot}
    (hf : ∀ loc steps fault, follow loc steps = .error fault →
      fault ≠ .notLink ∧ fault ≠ .nulInName)
    {loc : Location} {steps : List Component} {fault : Fault}
    (h : t.walkWith mode follow loc steps = .error fault) :
    fault ≠ .notLink ∧ fault ≠ .nulInName := by
  induction steps generalizing loc with
  | nil => cases h
  | cons step rest ih =>
    cases step with
    | root => exact ih h
    | here => exact ih h
    | up => exact ih h
    | name text =>
      rw [walkWith] at h
      split at h
      · cases h
        exact ⟨nofun, nofun⟩
      · split at h
        · split at h <;> cases h
          exact ⟨nofun, nofun⟩
        · split at h
          · cases h
            exact ⟨nofun, nofun⟩
          · exact ih h
        · split at h <;> cases h
          exact ⟨nofun, nofun⟩
        · split at h
          · cases h
          · split at h
            · cases h
              exact ⟨nofun, nofun⟩
            · exact hf _ _ _ h

theorem fault_walk {mode : Mode} {k : Nat} {loc : Location} {steps : List Component} {fault : Fault}
    (h : t.walk mode k loc steps = .error fault) : fault ≠ .notLink ∧ fault ≠ .nulInName := by
  induction k generalizing loc steps fault with
  | zero =>
    refine fault_walkWith (fun _ _ fault hf => ?_) h
    cases hf
    exact ⟨nofun, nofun⟩
  | succ k ih => exact fault_walkWith (fun _ _ _ hf => ih hf) h

theorem locate_nul {mode : Mode} {p : Path} (h : '\x00' ∈ p.chars) :
    t.locate mode p = .error .nulInName := by
  rw [locate, if_pos (by simpa using h)]

theorem fault_locate {mode : Mode} {p : Path} {fault : Fault}
    (h : t.locate mode p = .error fault) :
    fault ≠ .notLink ∧ (fault = .nulInName → '\x00' ∈ p.chars) := by
  unfold locate at h
  split at h
  · next nul =>
    cases h
    exact ⟨nofun, fun _ => by simpa using nul⟩
  · split at h
    · cases h
      exact ⟨nofun, nofun⟩
    · split at h
      · cases h
        exact ⟨nofun, nofun⟩
      · exact ⟨(fault_walk h).1, fun he => absurd he (fault_walk h).2⟩

theorem locate_name (p : Path) : t.locate .name p = t.locate .target p ∨
    ∃ l target, t.locate .name p = .ok (.entry l (.link target)) := by
  simp only [locate, ne_eq, reduceCtorEq, not_false_eq_true, true_and]
  split
  · exact .inl rfl
  · split
    · exact .inl rfl
    · split
      · exact .inl rfl
      · exact walk_name maxLinks t.workdir p.steps

/-- Of a path with a zero byte, no link can be read. -/
theorem readLink_nul {p : Path} : t.readLink p = .error .nulInName ↔ '\x00' ∈ p.chars := by
  constructor
  · intro h
    unfold readLink entry at h
    cases hl : t.locate .name p with
    | error fault =>
      rw [hl] at h
      cases h
      exact (fault_locate hl).2 rfl
    | ok spot =>
      rw [hl] at h
      cases spot with
      | vacant => cases h
      | entry loc node => cases node <;> cases h
  · intro nul
    simp only [readLink, entry, locate_nul nul]

/-- What is there and no link is found by its path. -/
theorem find_of_notLink {p : Path} (h : t.readLink p = .error .notLink) :
    ∃ found, t.find p = .ok found := by
  unfold readLink entry at h
  cases hl : t.locate .name p with
  | error fault =>
    rw [hl] at h
    cases h
    exact absurd rfl (fault_locate hl).1
  | ok spot =>
    rw [hl] at h
    cases spot with
    | vacant => cases h
    | entry loc node =>
      rcases t.locate_name p with same | ⟨l, target, link⟩
      · exact ⟨(loc, node), by rw [find, entry, ← same, hl]⟩
      · cases hl.symm.trans link
        cases h

end StackUsage.Tree

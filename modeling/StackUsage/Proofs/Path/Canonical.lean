import StackUsage.Proofs.Path.Normal

/-! The lexical normal form as a canonical form. A step up is surplus if no name is left in front of
it that it could take back; a name is kept if no later step up takes it back. The normal form is the
root, or else the surplus steps up, and behind it the names that are kept. A path that has this form
is its own normal form, and a path may be brought into it before something is joined to it. -/

namespace StackUsage.Path

/-! ### Surplus steps and kept names -/

/-- How many steps up have no name to take back. -/
def surplus : List Component → Nat
  | [] => 0
  | .up :: rest => surplus rest + 1
  | .name _ :: rest => surplus rest - 1
  | _ :: rest => surplus rest

/-- The names that no later step up takes back. -/
def kept : List Component → List Component
  | [] => []
  | .name text :: rest => if surplus rest = 0 then .name text :: kept rest else kept rest
  | _ :: rest => kept rest

def isNamed : Component → Bool
  | .name _ => true
  | _ => false

/-- What stands in front of the names: the root, or so many steps up. -/
def base (rooted : Bool) (n : Nat) : List Component :=
  if rooted then [.root] else List.replicate n .up

/-- The root or steps up, and then names only. -/
def IsCanonical (p : Path) : Prop :=
  ∃ n names, (∀ c ∈ names, isNamed c = true) ∧ p.components = base p.isAbsolute n ++ names

/-- There are as many surplus steps up as some beginning of the path has more of them than names. -/
theorem le_surplus_iff {m : Nat} {cs : List Component} :
    m ≤ surplus cs ↔ ∃ front, front <+: cs ∧ front.countP isNamed + m ≤ front.count .up := by
  cases m with
  | zero => exact ⟨fun _ => ⟨[], List.nil_prefix, by simp⟩, fun _ => Nat.zero_le _⟩
  | succ m =>
    induction cs generalizing m with
    | nil => simp [surplus]
    | cons c rest ih =>
      -- The beginning is not empty, so it takes in the first component.
      have split : ∀ P : List Component → Prop, ¬ P [] →
          ((∃ front, front <+: c :: rest ∧ P front) ↔
            ∃ front, front <+: rest ∧ P (c :: front)) := by
        intro P empty
        constructor
        · rintro ⟨front, hf, hp⟩
          obtain rfl | ⟨later, rfl, hl⟩ := List.prefix_cons_iff.1 hf
          · exact absurd hp empty
          · exact ⟨later, hl, hp⟩
        · rintro ⟨front, hf, hp⟩
          exact ⟨c :: front, List.cons_prefix_cons.2 ⟨rfl, hf⟩, hp⟩
      rw [split _ (by simp)]
      cases c with
      | root | here => simpa [surplus, isNamed] using ih m
      | up =>
        cases m with
        | zero =>
          refine ⟨fun _ => ⟨[], List.nil_prefix, by simp [isNamed]⟩, fun _ => by simp [surplus]⟩
        | succ m =>
          simp only [surplus, Nat.add_le_add_iff_right, ih m, isNamed, List.countP_cons,
            List.count_cons, BEq.rfl, if_true, Bool.false_eq_true, if_false, Nat.add_zero,
            ← Nat.add_assoc]
      | name text =>
        rw [show m + 1 ≤ surplus (.name text :: rest) ↔ m + 1 + 1 ≤ surplus rest by
          simp only [surplus]; omega, ih (m + 1)]
        refine exists_congr fun front => and_congr_right fun _ => ?_
        rw [List.countP_cons_of_pos rfl, List.count_cons_of_ne (by simp)]
        omega

/-! ### What following leaves -/

theorem follow_base (rooted : Bool) (n : Nat) :
    follow (base rooted n) .up = base rooted (n + 1) := by
  cases rooted with
  | true => rfl
  | false => cases n <;> rfl

theorem reverse_base (rooted : Bool) (n : Nat) : (base rooted n).reverse = base rooted n := by
  cases rooted <;> simp [base]

/-- Following components from names on a base: steps up take back those names first, the last one
first, and go into the base when there are no more of them. -/
theorem foldl_follow {cs : List Component} (rootless : .root ∉ cs) (rooted : Bool) (n : Nat)
    {names : List Component} (named : ∀ c ∈ names, isNamed c = true) :
    cs.foldl follow (names ++ base rooted n) =
      (kept cs).reverse ++ (names.drop (surplus cs) ++
        base rooted (n + (surplus cs - names.length))) := by
  -- A name makes the names in front longer and a step up shortens them or raises the base, so both
  -- vary in the induction.
  induction cs generalizing n names with
  | nil => simp [kept, surplus]
  | cons c rest ih =>
    have rootless' : .root ∉ rest := fun hm => rootless (List.mem_cons_of_mem _ hm)
    rw [List.foldl_cons]
    cases c with
    | root => exact absurd List.mem_cons_self rootless
    | here => exact ih rootless' n named
    | name text =>
      have pushed : follow (names ++ base rooted n) (.name text) =
        (.name text :: names) ++ base rooted n := rfl
      rw [pushed, ih rootless' n (by simpa [isNamed] using named)]
      cases hs : surplus rest with
      | zero => simp [kept, surplus, hs]
      | succ m => simp [kept, surplus, hs]
    | up =>
      cases names with
      | nil =>
        have climbed : follow ([] ++ base rooted n) .up = [] ++ base rooted (n + 1) :=
          follow_base rooted n
        rw [climbed, ih rootless' (n + 1) named]
        simp [kept, surplus, Nat.add_assoc, Nat.add_comm 1]
      | cons last names =>
        obtain ⟨text, rfl⟩ : ∃ text, last = .name text := by
          have := named last List.mem_cons_self
          cases last <;> first | exact ⟨_, rfl⟩ | cases this
        have back : follow (.name text :: names ++ base rooted n) .up = names ++ base rooted n :=
          rfl
        rw [back, ih rootless' n fun c hc => named c (List.mem_cons_of_mem _ hc)]
        simp [kept, surplus]

/-! ### The components of a path -/

/-- The root is said at the start or not at all. -/
theorem components_root (p : Path) :
    ∃ rest, p.components = (if p.isAbsolute then [.root] else []) ++ rest ∧ .root ∉ rest := by
  have pieces : .root ∉ p.pieces.filterMap componentOfPiece := by
    intro hm
    obtain ⟨piece, -, hc⟩ := List.mem_filterMap.1 hm
    obtain he | ⟨he, -⟩ := componentOfPiece_eq hc <;> cases he
  rw [components, head]
  split
  · exact ⟨_, rfl, pieces⟩
  · split
    · exact ⟨_, rfl, by simpa using pieces⟩
    · exact ⟨_, rfl, pieces⟩

theorem isAbsolute_iff {p : Path} : p.isAbsolute = true ↔ .root ∈ p.components := by
  obtain ⟨rest, hc, rootless⟩ := p.components_root
  rw [hc]
  cases p.isAbsolute <;> simp [rootless]

/-- The components that the normal form spells. -/
def folded (p : Path) : List Component := (p.components.foldl follow []).reverse

theorem folded_eq (p : Path) :
    p.folded = base p.isAbsolute (surplus p.components) ++ kept p.components := by
  obtain ⟨rest, hc, rootless⟩ := p.components_root
  have nameless : ∀ c ∈ ([] : List Component), isNamed c = true := by simp
  have followed := foldl_follow rootless p.isAbsolute 0 nameless
  rw [folded, hc]
  cases ha : p.isAbsolute with
  | true =>
    rw [ha] at followed
    change (rest.foldl follow ([] ++ base true 0)).reverse = _
    rw [followed]
    simp [kept, base]
  | false =>
    rw [ha] at followed
    change (rest.foldl follow ([] ++ base false 0)).reverse = _
    rw [followed]
    simp [reverse_base]

theorem kept_sublist (cs : List Component) :
    (kept cs).Sublist cs ∧ ∀ c ∈ kept cs, isNamed c = true := by
  induction cs with
  | nil => simp [kept]
  | cons c rest ih =>
    cases c with
    | root | here | up => exact ⟨ih.1.cons _, ih.2⟩
    | name text =>
      unfold kept
      split
      · exact ⟨ih.1.cons_cons _, by simpa [isNamed] using ih.2⟩
      · exact ⟨ih.1.cons _, ih.2⟩

/-- A plain spelling says the components that it spells. -/
theorem components_ofComponents {cs : List Component} (h : Plain cs) :
    (ofComponents cs).components = cs := by
  cases cs with
  | nil => rfl
  | cons c rest =>
    have later : (rest.map componentText).filterMap componentOfPiece = rest := by
      rw [List.filterMap_map]
      refine (List.filterMap_congr fun c hc => ?_).trans List.filterMap_some
      cases c with
      | root => exact absurd hc h.start
      | here => exact absurd (List.mem_cons_of_mem _ hc) h.dotless
      | up => rfl
      | name text =>
        obtain ⟨empty, dot, dots, -⟩ := h.names text (List.mem_cons_of_mem _ hc)
        simp [componentOfPiece, componentText, empty, dot, dots]
    rw [ofComponents, components_ofPieces (by simp) (slash_not_mem_map h.names), List.map_cons,
      said, later]
    cases c with
    | root => rfl
    | here => exact absurd List.mem_cons_self h.dotless
    | up => rfl
    | name text =>
      obtain ⟨empty, dot, dots, -⟩ := h.names text List.mem_cons_self
      simp [componentOfPiece, componentText, empty, dot, dots]

theorem components_normalize (p : Path) : p.normalize.components = p.folded :=
  components_ofComponents (plain_foldl p)

theorem isAbsolute_normalize (p : Path) : p.normalize.isAbsolute = p.isAbsolute := by
  have named := (kept_sublist p.components).2
  rw [Bool.eq_iff_iff, isAbsolute_iff, components_normalize, folded_eq]
  cases p.isAbsolute with
  | true => simp [base]
  | false =>
    have rootless : .root ∉ kept p.components := fun hm => Bool.false_ne_true (named _ hm)
    simp [base, rootless]

/-! ### Canonical paths -/

theorem surplus_names {names : List Component} (named : ∀ c ∈ names, isNamed c = true) :
    surplus names = 0 ∧ kept names = names := by
  induction names with
  | nil => exact ⟨rfl, rfl⟩
  | cons c rest ih =>
    obtain ⟨none, all⟩ := ih fun c hc => named c (List.mem_cons_of_mem _ hc)
    cases c with
    | root | here | up => cases named _ List.mem_cons_self
    | name text => simp [surplus, kept, none, all]

/-- In a canonical path all steps up are surplus and all names are kept. -/
theorem surplus_base {names : List Component} (named : ∀ c ∈ names, isNamed c = true)
    (rooted : Bool) (n : Nat) :
    base rooted (surplus (base rooted n ++ names)) = base rooted n ∧
      kept (base rooted n ++ names) = names := by
  obtain ⟨none, all⟩ := surplus_names named
  cases rooted with
  | true => exact ⟨rfl, all⟩
  | false =>
    have steps : surplus (List.replicate n .up ++ names) = n ∧
        kept (List.replicate n .up ++ names) = names := by
      induction n with
      | zero => exact ⟨none, all⟩
      | succ n ih => exact ⟨congrArg (· + 1) ih.1, ih.2⟩
    exact ⟨congrArg (base false) steps.1, steps.2⟩

theorem folded_of_canonical {p : Path} (h : p.IsCanonical) : p.folded = p.components := by
  obtain ⟨n, names, named, hc⟩ := h
  obtain ⟨same, all⟩ := surplus_base named p.isAbsolute n
  rw [folded_eq, hc, same, all]

theorem isCanonical_normalize (p : Path) : p.normalize.IsCanonical :=
  ⟨_, _, (kept_sublist p.components).2, by
    rw [isAbsolute_normalize, components_normalize, folded_eq]⟩

/-- The normal form of a canonical path is its plain spelling. -/
theorem normalize_of_canonical {p : Path} (h : p.IsCanonical) :
    p.normalize = ofComponents p.components :=
  congrArg ofComponents (folded_of_canonical h)

theorem normalize_normalize (p : Path) : p.normalize.normalize = p.normalize := by
  rw [normalize_of_canonical p.isCanonical_normalize, components_normalize]
  rfl

/-- Only what is spelled plainly and canonical is its own normal form. -/
theorem normalize_eq_self {p : Path} :
    p.normalize = p ↔ p.IsCanonical ∧ ofComponents p.components = p := by
  constructor
  · intro h
    have canonical : p.IsCanonical := h ▸ p.isCanonical_normalize
    exact ⟨canonical, (normalize_of_canonical canonical).symm.trans h⟩
  · rintro ⟨canonical, plain⟩
    exact (normalize_of_canonical canonical).trans plain

/-! ### Joining -/

/-- Dots count for nothing. -/
theorem foldl_follow_moves (p : Path) (taken : List Component) :
    p.moves.foldl follow taken = p.components.foldl follow taken := by
  rcases p.components_eq_moves with h | h
  · rw [h]
  · rw [h]
    rfl

theorem normalize_join (p q : Path) : (p.join q).normalize = (p.normalize.join q).normalize := by
  have again : p.normalize.moves.foldl follow [] = p.moves.foldl follow [] := by
    have same : p.normalize.folded = p.folded :=
      (folded_of_canonical p.isCanonical_normalize).trans (components_normalize p)
    rw [foldl_follow_moves, foldl_follow_moves]
    exact List.reverse_injective same
  have joined : (p.join q).moves.foldl follow [] = (p.normalize.join q).moves.foldl follow [] := by
    rw [moves_join, moves_join]
    split
    · rfl
    · rw [List.foldl_append, List.foldl_append, again]
  rw [normalize, normalize, ← foldl_follow_moves, ← foldl_follow_moves, joined]

/-! ### The canonical form -/

/-- What the normal form of a path is. It consists of the root and the kept names if the path is
absolute, so that surplus steps up are dropped, and otherwise of all surplus steps up and then the
kept names; there are as many of them as some beginning of the path has more steps up than names. -/
structure IsNormalForm (p q : Path) : Prop where
  dotless : .here ∉ q.components
  absolute : q.isAbsolute = p.isAbsolute
  stepless : p.isAbsolute = true → .up ∉ q.components
  form : q.components = base p.isAbsolute (surplus p.components) ++ kept p.components
  le_surplus : ∀ m, m ≤ surplus p.components ↔
    ∃ front, front <+: p.components ∧ front.countP isNamed + m ≤ front.count .up
  sublist : (kept p.components).Sublist p.components
  named : ∀ c ∈ kept p.components, isNamed c = true
  canonical : q.IsCanonical
  same : p.IsCanonical → q.same p = true
  unchanged : q = p ↔ p.IsCanonical ∧ ofComponents p.components = p
  again : q.normalize = q
  join : ∀ r, (p.join r).normalize = (q.join r).normalize

/-- The normal form is canonical and goes with joining. It has no dots and is absolute just if
the path is. A canonical path is the same path as its normal form, and is spelled alike if it is
spelled plainly. So a second pass changes nothing, and what is joined to a path and what is joined
to its normal form have one normal form. -/
theorem normalize_canonical (p : Path) : IsNormalForm p p.normalize := by
  obtain ⟨sub, named⟩ := kept_sublist p.components
  have form := (components_normalize p).trans (folded_eq p)
  exact {
    dotless := by
      rw [components_normalize]
      exact (plain_foldl p).dotless
    absolute := isAbsolute_normalize p
    stepless := fun absolute => by
      have stepless : .up ∉ kept p.components := fun hm => Bool.false_ne_true (named _ hm)
      rw [form, absolute]
      simp [base, stepless]
    form := form
    le_surplus := fun _ => le_surplus_iff
    sublist := sub
    named := named
    canonical := isCanonical_normalize p
    same := fun canonical => by
      rw [Path.same, components_normalize, folded_of_canonical canonical]
      exact decide_eq_true rfl
    unchanged := normalize_eq_self
    again := normalize_normalize p
    join := normalize_join p }

/-- Three steps up and one name before them leave two steps; at the root they lead nowhere. -/
theorem normalize_canonical_detour :
    (⟨"a/.././../..//b/"⟩ : Path).normalize = ⟨"../../b"⟩ ∧
      (⟨"/a/.././../..//b/"⟩ : Path).normalize = ⟨"/b"⟩ ∧
      (⟨"../../b"⟩ : Path).normalize.same ⟨"../../b"⟩ = true ∧
      ((⟨"a/.././../..//b/"⟩ : Path).join ⟨"../c"⟩).normalize =
        ((⟨"../../b"⟩ : Path).join ⟨"../c"⟩).normalize := by
  have relative : (⟨"a/.././../..//b/"⟩ : Path).normalize = ⟨"../../b"⟩ := by decide +kernel
  have law := normalize_canonical ⟨"a/.././../..//b/"⟩
  rw [relative] at law
  exact ⟨relative, by decide +kernel, (normalize_canonical ⟨"../../b"⟩).same law.canonical,
    law.join ⟨"../c"⟩⟩

end StackUsage.Path

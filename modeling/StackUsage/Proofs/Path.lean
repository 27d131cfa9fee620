import StackUsage.Proofs.Text
import StackUsage.Tree

/-! What the parts of a path say. A path that is not empty says what its pieces say, with an empty
first piece for the root. Empty pieces and dots at the end say nothing, so the parent says all but
the last component, and joining puts what two paths say one after the other. -/

namespace StackUsage.Path

/-! ### Pieces -/

theorem pieces_ne_nil (p : Path) : p.pieces ≠ [] := List.splitOn_ne_nil _ _

theorem pieces_ofChars (s : List Char) : (ofChars s).pieces = s.splitOn '/' := by
  simp [pieces, chars, ofChars]

theorem pieces_absolute {p : Path} (h : p.isAbsolute = true) :
    ∃ rest, rest ≠ [] ∧ p.pieces = [] :: rest := by
  obtain ⟨s, hs⟩ : ∃ s, p.chars = '/' :: s := by
    cases hc : p.chars <;> simp_all [isAbsolute]
  refine ⟨s.splitOn '/', List.splitOn_ne_nil _ _, ?_⟩
  rw [pieces, hs]
  exact List.splitOn_append_cons_self (a := '/') [] s

theorem pieces_relative {p : Path} (h : p.isAbsolute = false) (ne : p.chars ≠ []) :
    ∃ first rest, first ≠ [] ∧ p.pieces = first :: rest := by
  obtain ⟨c, s, hs⟩ := List.exists_cons_of_ne_nil ne
  have hc : (c == '/') = false := by
    simpa [isAbsolute, hs] using h
  obtain ⟨first, rest, hp⟩ := List.exists_cons_of_ne_nil (List.splitOn_ne_nil '/' s)
  refine ⟨c :: first, rest, List.cons_ne_nil _ _, ?_⟩
  rw [pieces, hs, List.splitOn_cons_eq_if_modifyHead, hc, hp]
  rfl

/-! ### What pieces say -/

/-- What the pieces of a path say, if it is not empty. -/
def said : List (List Char) → List Component
  | [] => []
  | first :: rest =>
    (if first = [] then [.root] else if first = ['.'] then [.here]
      else (componentOfPiece first).toList) ++ rest.filterMap componentOfPiece

theorem said_append {ps : List (List Char)} (ne : ps ≠ []) (qs : List (List Char)) :
    said (ps ++ qs) = said ps ++ qs.filterMap componentOfPiece := by
  cases ps with
  | nil => exact absurd rfl ne
  | cons first rest => simp [said]

theorem components_eq_said {p : Path} (ne : p.chars ≠ []) : p.components = said p.pieces := by
  cases ha : p.isAbsolute with
  | true =>
    obtain ⟨rest, -, hp⟩ := pieces_absolute ha
    simp [components, head, ha, hp, said, componentOfPiece]
  | false =>
    obtain ⟨first, rest, hf, hp⟩ := pieces_relative ha ne
    simp only [components, head, ha, hp, said, List.head?_cons, Option.some.injEq, hf,
      Bool.false_eq_true, if_false]
    by_cases hd : first = ['.']
    · simp [hd, componentOfPiece]
    · cases hc : componentOfPiece first <;> simp [hd, hc]

theorem components_empty {p : Path} (h : p.chars = []) : p.components = [] := by
  simp [components, head, isAbsolute, pieces, h, componentOfPiece]

theorem pieces_ofPieces {ps : List (List Char)} (ne : ps ≠ []) (more : ps ≠ [[]])
    (plain : ∀ piece ∈ ps, '/' ∉ piece) : (ofPieces ps).pieces = ps := by
  rw [ofPieces, if_neg more, pieces_ofChars]
  exact List.splitOn_intercalate '/' plain ne

theorem components_ofPieces {ps : List (List Char)} (ne : ps ≠ [])
    (plain : ∀ piece ∈ ps, '/' ∉ piece) : (ofPieces ps).components = said ps := by
  by_cases more : ps = [[]]
  · subst more
    rfl
  · have hp := pieces_ofPieces ne more plain
    rw [components_eq_said, hp]
    intro he
    refine more (hp.symm.trans ?_)
    rw [pieces, he, List.splitOn_nil]

/-! ### Idle pieces -/

/-- A piece that says nothing after the start of a path. -/
def idle (piece : List Char) : Bool := piece = [] || piece = ['.']

theorem componentOfPiece_idle {piece : List Char} : componentOfPiece piece = none ↔ idle piece := by
  unfold componentOfPiece idle
  split
  · next h => simpa using h
  · next h =>
    split <;> simpa using h

theorem dropIdle_cons (first : List Char) (rest : List (List Char)) :
    dropIdle (first :: rest) = first :: rest.rdropWhile idle := rfl

theorem filterMap_rdropWhile (ps : List (List Char)) :
    (ps.rdropWhile idle).filterMap componentOfPiece = ps.filterMap componentOfPiece := by
  induction ps using List.reverseRecOn with
  | nil => rfl
  | append_singleton ps piece ih =>
    by_cases h : idle piece = true
    · rw [List.rdropWhile_concat_pos idle ps piece h, ih, List.filterMap_append]
      simp [componentOfPiece_idle.2 h]
    · rw [List.rdropWhile_concat_neg idle ps piece h]

theorem said_dropIdle (ps : List (List Char)) : said (dropIdle ps) = said ps := by
  cases ps with
  | nil => rfl
  | cons first rest => rw [dropIdle_cons, said, said, filterMap_rdropWhile]

theorem dropIdle_sublist (ps : List (List Char)) : (dropIdle ps).Sublist ps := by
  cases ps with
  | nil => exact .refl _
  | cons first rest => exact (List.rdropWhile_prefix idle rest).sublist.cons_cons first

/-! ### The parent -/

theorem parent_of_getLast? {p : Path} {c : Component} (h : p.components.getLast? = some c)
    (hc : c ≠ .root) : ∃ q, p.parent = some q := by
  unfold parent
  rw [h]
  cases c with
  | root => exact absurd rfl hc
  | here | up | name =>
    dsimp only
    split <;> exact ⟨_, rfl⟩

theorem parent_eq {p q : Path} (h : p.parent = some q) :
    (dropIdle p.pieces).dropLast = [] ∧ q = ⟨""⟩ ∨
      (dropIdle p.pieces).dropLast ≠ [] ∧ q = ofPieces (dropIdle (dropIdle p.pieces).dropLast) := by
  unfold parent at h
  split at h
  · cases h
  · cases h
  · split at h
    · next none =>
      cases h
      exact .inl ⟨none, rfl⟩
    · next some =>
      cases h
      exact .inr ⟨some, rfl⟩

/-- What is left is the first piece alone, or ends with a piece that says something. -/
theorem dropIdle_cases (first : List Char) (rest : List (List Char)) :
    dropIdle (first :: rest) = [first] ∨
      ∃ init last c, dropIdle (first :: rest) = first :: init ++ [last] ∧
        componentOfPiece last = some c := by
  rw [dropIdle_cons]
  rcases List.eq_nil_or_concat' (rest.rdropWhile idle) with hk | ⟨init, last, hk⟩
  · exact .inl (by rw [hk])
  · have active : idle last = false := by
      have := List.rdropWhile_last_not idle rest (by simp [hk])
      simpa [hk] using this
    cases hc : componentOfPiece last with
    | some c => exact .inr ⟨init, last, c, by rw [hk, List.cons_append], hc⟩
    | none => simp [componentOfPiece_idle.1 hc] at active

/-- The parent says all but the last component. -/
theorem components_parent {p q : Path} (h : p.parent = some q) :
    q.components = p.components.dropLast := by
  have ne : p.chars ≠ [] := by
    intro he
    simp [parent, components_empty he] at h
  obtain ⟨first, rest, hp⟩ := List.exists_cons_of_ne_nil p.pieces_ne_nil
  rw [components_eq_said ne, ← said_dropIdle]
  rcases dropIdle_cases first rest with hk | ⟨init, last, c, hk, hc⟩
  · -- Only the first piece says anything.
    have one : (said [first]).dropLast = [] := by
      simp only [said, List.filterMap_nil, List.append_nil]
      split
      · rfl
      · split
        · rfl
        · cases componentOfPiece first <;> rfl
    obtain ⟨-, rfl⟩ | ⟨more, -⟩ := parent_eq h
    · rw [hp, hk, one]
      exact components_empty rfl
    · rw [hp, hk] at more
      exact absurd rfl more
  · have above : (dropIdle p.pieces).dropLast = first :: init := by
      rw [hp, hk, List.dropLast_concat]
    have sub : (dropIdle (first :: init)).Sublist p.pieces := by
      refine (dropIdle_sublist _).trans (.trans ?_ (dropIdle_sublist p.pieces))
      rw [← above]
      exact List.dropLast_sublist _
    obtain ⟨none, -⟩ | ⟨-, rfl⟩ := parent_eq h
    · cases above.symm.trans none
    · rw [above, components_ofPieces (by simp [dropIdle_cons])
        fun piece hm => Text.not_mem_of_mem_splitOn (sub.subset hm), said_dropIdle, hp, hk,
        said_append (by simp), List.filterMap_cons, hc]
      simp

theorem length_parent {p q : Path} (h : p.parent = some q) :
    q.components.length < p.components.length := by
  have ne : p.components ≠ [] := by
    intro he
    simp [parent, he] at h
  rw [components_parent h, List.length_dropLast]
  exact Nat.sub_lt (List.length_pos_of_ne_nil ne) Nat.one_pos

/-! ### Ancestors -/

theorem exists_ancestors (p : Path) : ∃ above, p.ancestors = p :: above := by
  unfold ancestors
  cases p.components.length with
  | zero => exact ⟨[], rfl⟩
  | succ n => cases h : p.parent <;> simp [ancestorsWithin, h]

/-- What stands above a path has fewer components. -/
theorem length_of_mem_ancestors {p q : Path} (h : q ∈ p.ancestors) :
    q = p ∨ q.components.length < p.components.length := by
  have within : ∀ n (p : Path), q ∈ ancestorsWithin n p →
      q = p ∨ q.components.length < p.components.length := by
    intro n
    induction n with
    | zero => exact fun p h => .inl (List.mem_singleton.1 h)
    | succ n ih =>
      intro p h
      cases hp : p.parent with
      | none =>
        rw [ancestorsWithin, hp] at h
        exact .inl (List.mem_singleton.1 h)
      | some above =>
        rw [ancestorsWithin, hp] at h
        rcases List.mem_cons.1 h with rfl | h
        · exact .inl rfl
        · have shorter := length_parent hp
          rcases ih above h with rfl | h
          · exact .inr shorter
          · exact .inr (h.trans shorter)
  exact within _ p h

/-! ### Moves -/

/-- What a piece says is a step up or the piece itself as a name. -/
theorem componentOfPiece_eq {piece : List Char} {c : Component}
    (h : componentOfPiece piece = some c) :
    c = .up ∨ c = .name piece ∧ piece ≠ [] ∧ piece ≠ ['.'] ∧ piece ≠ ['.', '.'] := by
  unfold componentOfPiece at h
  split at h
  · cases h
  · next hi =>
    split at h
    · cases h
      exact .inl rfl
    · next hu =>
      cases h
      exact .inr ⟨rfl, fun he => hi (.inl he), fun he => hi (.inr he), hu⟩

/-- The components without dots. -/
def moves (p : Path) : List Component := p.components.filter (· ≠ .here)

theorem moves_eq (p : Path) :
    p.moves = (if p.isAbsolute then [.root] else []) ++ p.pieces.filterMap componentOfPiece := by
  have said : ∀ c ∈ p.pieces.filterMap componentOfPiece, decide (c ≠ .here) = true := by
    intro c hc
    obtain ⟨piece, -, hc⟩ := List.mem_filterMap.1 hc
    rcases componentOfPiece_eq hc with rfl | ⟨rfl, -⟩ <;> rfl
  rw [moves, components, List.filter_append, List.filter_eq_self.2 said, head]
  split
  · rfl
  · split <;> rfl

/-- Dots at the start of the components are the only ones. -/
theorem components_eq_moves (p : Path) :
    p.components = p.moves ∨ p.components = .here :: p.moves := by
  rw [moves_eq, components, head]
  split
  · exact .inl rfl
  · split
    · exact .inr rfl
    · exact .inl rfl

/-- The steps of a walk along the path are its moves, with dots in between. -/
theorem filter_steps (p : Path) : p.steps.filter (· ≠ .here) = p.moves := by
  have step : ∀ piece,
      [stepOfPiece piece].filter (· ≠ .here) = (componentOfPiece piece).toList := by
    intro piece
    unfold stepOfPiece componentOfPiece
    split
    · rfl
    · split <;> rfl
  have names : ∀ pieces : List (List Char), (pieces.map stepOfPiece).filter (· ≠ .here) =
      pieces.filterMap componentOfPiece := by
    intro pieces
    induction pieces with
    | nil => rfl
    | cons piece rest ih =>
      rw [List.map_cons, ← List.singleton_append, List.filter_append, step, ih]
      cases hc : componentOfPiece piece <;> simp [hc]
  have full : ∀ pieces : List (List Char),
      (pieces.filter (· ≠ [])).filterMap componentOfPiece = pieces.filterMap componentOfPiece := by
    intro pieces
    rw [List.filterMap_filter]
    refine List.filterMap_congr fun piece _ => ?_
    by_cases he : piece = [] <;> simp [he, componentOfPiece]
  rw [moves_eq, steps, List.filter_append, names, List.filterMap_append, full,
    ← List.filterMap_append]
  congr 1
  · split <;> rfl
  · rw [← List.dropLast_concat_getLast p.pieces_ne_nil]
    simp

theorem chars_ofChars (s : List Char) : (ofChars s).chars = s := by simp [chars, ofChars]

theorem moves_slash (s : List Char) {q : Path} (hq : q.isAbsolute = false) :
    (ofChars (s ++ '/' :: q.chars)).moves =
      (if (s ++ ['/']).head? = some '/' then [.root] else []) ++
        (s.splitOn '/').filterMap componentOfPiece ++ q.moves := by
  have pieces : (ofChars (s ++ '/' :: q.chars)).pieces = s.splitOn '/' ++ q.pieces := by
    rw [pieces_ofChars]
    exact List.splitOn_append_cons_self (a := '/') s q.chars
  have first : (ofChars (s ++ '/' :: q.chars)).isAbsolute =
      decide ((s ++ ['/']).head? = some '/') := by
    rw [isAbsolute, chars_ofChars]
    cases s <;> rfl
  rw [moves_eq, moves_eq q, pieces, first, hq, List.filterMap_append]
  simp

/-- Joining puts the moves of both paths together, unless the second one starts at the root. -/
theorem moves_join (p q : Path) :
    (p.join q).moves = if q.isAbsolute then q.moves else p.moves ++ q.moves := by
  unfold join
  cases hq : q.isAbsolute with
  | true => simp
  | false =>
    simp only [Bool.false_eq_true, if_false]
    by_cases hp : p.chars = []
    · have empty : p.moves = [] := by rw [moves, components_empty hp, List.filter_nil]
      rw [if_pos (.inl hp), hp, empty]
      rcases q with ⟨spelling⟩
      simp [ofChars, chars]
    · by_cases last : p.chars.getLast? = some '/'
      · obtain ⟨s, hs⟩ := List.getLast?_eq_some_iff.1 last
        have own : p.moves = (if (s ++ ['/']).head? = some '/' then [.root] else []) ++
            (s.splitOn '/').filterMap componentOfPiece := by
          have pieces : p.pieces = s.splitOn '/' ++ [[]] := by
            rw [Path.pieces, hs]
            exact List.splitOn_append_cons_self (a := '/') s []
          rw [moves_eq, pieces, List.filterMap_append, isAbsolute, hs]
          simp [componentOfPiece]
        rw [if_pos (.inr last), hs, List.append_assoc, List.singleton_append, moves_slash s hq, own]
      · have own : p.moves = (if (p.chars ++ ['/']).head? = some '/' then [.root] else []) ++
            (p.chars.splitOn '/').filterMap componentOfPiece := by
          rw [moves_eq, isAbsolute, List.head?_append_of_ne_nil _ hp]
          simp [pieces]
        rw [if_neg (by simp [hp, last]), moves_slash p.chars hq, own]

/-- The parent of a path that ends with a name has the moves before it. -/
theorem moves_parent {p q : Path} {init : List Component} {text : List Char}
    (h : p.parent = some q) (hm : p.moves = init ++ [.name text]) : q.moves = init := by
  have dotless : init.filter (· ≠ .here) = init := by
    refine List.filter_eq_self.2 fun c hc => ?_
    have : c ∈ p.moves := by
      rw [hm]
      exact List.mem_append_left _ hc
    exact (List.mem_filter.1 this).2
  rw [moves, components_parent h]
  rcases p.components_eq_moves with hc | hc
  · rw [hc, hm, List.dropLast_concat, dotless]
  · rw [hc, hm, ← List.cons_append, List.dropLast_concat, List.filter_cons_of_neg (by simp),
      dotless]

theorem exists_parent {p : Path} {init : List Component} {text : List Char}
    (hm : p.moves = init ++ [.name text]) : ∃ q, p.parent = some q := by
  refine parent_of_getLast? (c := .name text) ?_ (by simp)
  rcases p.components_eq_moves with hc | hc
  · rw [hc, hm, List.getLast?_concat]
  · rw [hc, hm, ← List.cons_append, List.getLast?_concat]

/-! ### Names -/

theorem fileName_eq_some_iff {p : Path} {name : String} :
    p.fileName = some name ↔ p.components.getLast? = some (.name name.toList) := by
  unfold fileName
  constructor
  · intro h
    split at h
    · next text hc =>
      cases h
      rw [hc, String.toList_ofList]
    · cases h
  · intro h
    rw [h]
    exact congrArg some String.ofList_toList

/-- What a name says is one of the pieces. -/
theorem mem_pieces_of_name {p : Path} {text : List Char} (h : .name text ∈ p.components) :
    text ∈ p.pieces ∧ text ≠ [] ∧ text ≠ ['.'] ∧ text ≠ ['.', '.'] := by
  have said : .name text ∈ p.moves := List.mem_filter.2 ⟨h, rfl⟩
  rw [moves_eq] at said
  rcases List.mem_append.1 said with root | said
  · split at root <;> simp at root
  · obtain ⟨piece, hp, hc⟩ := List.mem_filterMap.1 said
    obtain he | ⟨he, plain⟩ := componentOfPiece_eq hc
    · cases he
    · cases he
      exact ⟨hp, plain⟩

end StackUsage.Path

import StackUsage.Path.Normal
import StackUsage.Proofs.Path

/-! Following components keeps them fit for a plain spelling: names are pieces, dots are gone, and
the root stands at the start only. The steps of such a spelling are the components again, so a walk
along a normal form takes just the components that were left. -/

namespace StackUsage.Path

/-- A text that is read back as the name it is. -/
def IsName (text : List Char) : Prop :=
  text ≠ [] ∧ text ≠ ['.'] ∧ text ≠ ['.', '.'] ∧ '/' ∉ text

/-- Components that a plain spelling keeps. -/
structure Plain (cs : List Component) : Prop where
  names : ∀ text, .name text ∈ cs → IsName text
  dotless : .here ∉ cs
  start : .root ∉ cs.tail

theorem isName_of_mem {p : Path} {text : List Char} (h : .name text ∈ p.components) :
    IsName text := by
  rcases List.mem_append.1 h with h | h
  · unfold head at h
    split at h
    · simp at h
    · split at h <;> simp at h
  · obtain ⟨piece, hp, hc⟩ := List.mem_filterMap.1 h
    rcases componentOfPiece_eq hc with he | ⟨he, empty, dot, dots⟩
    · cases he
    · cases he
      exact ⟨empty, dot, dots, Text.not_mem_of_mem_splitOn hp⟩

/-! ### Following -/

theorem plain_follow {taken : List Component} {c : Component} (h : Plain taken.reverse)
    (hc : ∀ text, c = .name text → IsName text) : Plain (follow taken c).reverse := by
  have push : c ≠ .here → c ≠ .root → Plain (c :: taken).reverse := by
    intro notHere notRoot
    refine ⟨fun text ht => ?_, ?_, ?_⟩
    · rw [List.reverse_cons, List.mem_append, List.mem_singleton] at ht
      exact ht.elim (h.names text) fun he => hc text he.symm
    · rw [List.reverse_cons, List.mem_append, List.mem_singleton]
      exact fun hm => hm.elim h.dotless fun he => notHere he.symm
    · rw [List.reverse_cons]
      cases hr : taken.reverse with
      | nil => simp
      | cons first rest =>
        have := h.start
        rw [hr] at this
        simp only [List.cons_append, List.tail_cons, List.mem_append, List.mem_singleton] at this ⊢
        exact fun hm => hm.elim this fun he => notRoot he.symm
  cases c with
  | here => exact h
  | root => exact ⟨by simp [follow], by simp [follow], by simp [follow]⟩
  | name text => exact push (by simp) (by simp)
  | up =>
    cases taken with
    | nil => exact push (by simp) (by simp)
    | cons last rest =>
      cases last with
      | root => exact h
      | here | up => exact push (by simp) (by simp)
      | name text =>
        rw [List.reverse_cons] at h
        refine ⟨fun other ho => h.names other (List.mem_append_left _ ho),
          fun hm => h.dotless (List.mem_append_left _ hm), fun hm => h.start ?_⟩
        change Component.root ∈ rest.reverse.tail at hm
        cases hr : rest.reverse with
        | nil => simp [hr] at hm
        | cons first more =>
          rw [hr] at hm
          simp only [List.cons_append, List.tail_cons] at hm ⊢
          exact List.mem_append_left _ hm

/-- What is left of the components of a path is plain. -/
theorem plain_foldl (p : Path) : Plain (p.components.foldl follow []).reverse := by
  have fold : ∀ (cs taken : List Component), (∀ text, .name text ∈ cs → IsName text) →
      Plain taken.reverse → Plain (cs.foldl follow taken).reverse := by
    intro cs
    induction cs with
    | nil => exact fun _ _ h => h
    | cons c rest ih =>
      intro taken names h
      refine ih _ (fun text ht => names text (List.mem_cons_of_mem _ ht)) (plain_follow h ?_)
      rintro text rfl
      exact names text List.mem_cons_self
  exact fold _ [] (fun text => isName_of_mem) ⟨by simp, by simp, by simp⟩

/-! ### Plain spellings -/

section Spelling

variable {cs : List Component} (names : ∀ text, .name text ∈ cs → IsName text)
include names

theorem slash_not_mem_map : ∀ piece ∈ cs.map componentText, '/' ∉ piece := by
  intro piece hp
  obtain ⟨c, hc, rfl⟩ := List.mem_map.1 hp
  cases c with
  | root | here | up => simp [componentText]
  | name text => exact (names text hc).2.2.2

/-- Without a root, every component is spelled as a piece that is read back. -/
theorem full_map (rootless : .root ∉ cs) : ∀ piece ∈ cs.map componentText, piece ≠ [] := by
  intro piece hp
  obtain ⟨c, hc, rfl⟩ := List.mem_map.1 hp
  cases c with
  | root => exact absurd hc rootless
  | here | up => simp [componentText]
  | name text => exact (names text hc).1

theorem map_stepOfPiece (rootless : .root ∉ cs) :
    (cs.map componentText).map stepOfPiece = cs := by
  rw [List.map_map]
  refine (List.map_congr_left fun c hc => ?_).trans (List.map_id _)
  cases c with
  | root => exact absurd hc rootless
  | here | up => simp [stepOfPiece, componentText]
  | name text =>
    obtain ⟨empty, dot, dots, -⟩ := names text hc
    simp [stepOfPiece, componentText, empty, dot, dots]

end Spelling

/-- Pieces that are not empty are all steps. -/
theorem filter_pieces {ps : List (List Char)} (full : ∀ piece ∈ ps, piece ≠ []) :
    ps.dropLast.filter (· ≠ []) ++ ps.getLast?.toList = ps := by
  rcases List.eq_nil_or_concat' ps with rfl | ⟨init, last, rfl⟩
  · rfl
  · rw [List.dropLast_concat, List.getLast?_concat, List.filter_eq_self.2]
    · rfl
    · exact fun piece hp => by simpa using full piece (List.mem_append_left _ hp)

theorem steps_relative {cs : List Component} (h : Plain cs) (ne : cs ≠ []) (rootless : .root ∉ cs) :
    (ofComponents cs).steps = cs := by
  have full := full_map h.names rootless
  have more : cs.map componentText ≠ [[]] := fun he => full [] (by simp [he]) rfl
  have pieces : (ofComponents cs).pieces = cs.map componentText :=
    pieces_ofPieces (by simpa using ne) more (slash_not_mem_map h.names)
  have relative : (ofComponents cs).isAbsolute = false := by
    cases ha : (ofComponents cs).isAbsolute with
    | false => rfl
    | true =>
      obtain ⟨rest, -, hp⟩ := pieces_absolute ha
      exact absurd rfl (full [] (by simp [← pieces, hp]))
  rw [steps, relative, pieces, filter_pieces full, map_stepOfPiece h.names rootless]
  rfl

theorem steps_rooted {rest : List Component} (h : Plain (.root :: rest)) (ne : rest ≠ []) :
    (ofComponents (.root :: rest)).steps = .root :: rest := by
  have names : ∀ text, .name text ∈ rest → IsName text :=
    fun text ht => h.names text (List.mem_cons_of_mem _ ht)
  have full := full_map names h.start
  have more : rest.map componentText ≠ [] := by simpa using ne
  have pieces : (ofComponents (.root :: rest)).pieces = [] :: rest.map componentText := by
    refine pieces_ofPieces (by simp) ?_ (slash_not_mem_map h.names)
    simpa [componentText] using ne
  have absolute : (ofComponents (.root :: rest)).isAbsolute = true := by
    cases ha : (ofComponents (.root :: rest)).isAbsolute with
    | true => rfl
    | false =>
      by_cases empty : (ofComponents (.root :: rest)).chars = []
      · rw [Path.pieces, empty, List.splitOn_nil] at pieces
        exact absurd (List.cons.inj pieces).2.symm more
      · obtain ⟨first, others, hf, hp⟩ := pieces_relative ha empty
        exact absurd (List.cons.inj (hp.symm.trans pieces)).1 hf
  rw [steps, absolute, pieces, List.dropLast_cons_of_ne_nil more,
    List.filter_cons_of_neg (by simp), List.getLast?_cons_of_ne_nil more, filter_pieces full,
    map_stepOfPiece names h.start]
  rfl

/-- The steps of a plain spelling that ends with a name are its components. -/
theorem steps_ofComponents {init : List Component} {text : List Char}
    (h : Plain (init ++ [.name text])) :
    (ofComponents (init ++ [.name text])).steps = init ++ [.name text] := by
  cases init with
  | nil => exact steps_relative h (by simp) (by simp)
  | cons first rest =>
    by_cases hr : first = .root
    · subst hr
      exact steps_rooted h (by simp)
    · refine steps_relative h (by simp) fun hm => ?_
      rcases List.mem_cons.1 hm with he | hm
      · exact hr he.symm
      · exact h.start hm

end StackUsage.Path

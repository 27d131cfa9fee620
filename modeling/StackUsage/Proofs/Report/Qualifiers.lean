import StackUsage.Proofs.Text
import StackUsage.Report.Line

/-! The qualifiers of a line. Its last field is a list of tokens with commas between them and blanks
around them, and the set read is the set of qualifiers that the tokens name, so order, repetition
and blanks do not matter. One token that is no name spoils the field, and the first such is at
fault; a field that is blank names nothing. -/

namespace StackUsage

/-! ### Sets -/

theorem Qualifier.ofName?_eq_some {s : String} {q : Qualifier} :
    ofName? s = some q ↔ s = q.name := by
  constructor
  · intro h
    rw [ofName?] at h
    have named := List.find?_some h
    exact (of_decide_eq_true named).symm
  · rintro rfl
    exact ofName?_name q

theorem Qualifier.eq_of_name {p q : Qualifier} (h : p.name = q.name) : p = q :=
  Option.some.inj ((ofName?_name p).symm.trans (ofName?_eq_some.2 h))

namespace Qualifiers

theorem contains_insert (s : Qualifiers) (p q : Qualifier) :
    (s.insert p).contains q = true ↔ q = p ∨ s.contains q = true := by
  cases p <;> cases q <;> simp [insert, contains]

theorem contains_foldl {l : List Qualifier} {s : Qualifiers} {q : Qualifier} :
    (l.foldl insert s).contains q = true ↔ q ∈ l ∨ s.contains q = true := by
  induction l generalizing s with
  | nil => simp
  | cons p l ih =>
    rw [List.foldl_cons, ih, contains_insert, List.mem_cons, or_left_comm, or_assoc]

theorem contains_ofList {l : List Qualifier} {q : Qualifier} :
    (ofList l).contains q = true ↔ q ∈ l := by
  rw [ofList, contains_foldl]
  cases q <;> simp [empty, contains]

theorem mem_toList {s : Qualifiers} {q : Qualifier} : q ∈ s.toList ↔ s.contains q = true := by
  rw [toList, List.mem_filter]
  cases q <;> simp [Qualifier.all]

theorem eq_of_contains {s t : Qualifiers}
    (h : ∀ q, s.contains q = true ↔ t.contains q = true) : s = t := by
  have static := h .static
  have dynamic := h .dynamic
  have bounded := h .bounded
  cases s
  cases t
  simp_all [contains]

theorem ne_empty_of_contains {s : Qualifiers} {q : Qualifier} (h : s.contains q = true) :
    s ≠ empty := by
  rintro rfl
  cases q <;> cases h

theorem toList_ne_nil {s : Qualifiers} (h : s ≠ empty) : s.toList ≠ [] := by
  intro none
  rw [← ofList_toList s, none] at h
  exact h rfl

end Qualifiers

namespace Report

/-! ### Reading one after the other -/

section First

variable {α β ε : Type} {f : α → Except ε β}

theorem mapM_eq_ok {l : List α} {values : List β} (h : l.map f = values.map .ok) :
    l.mapM f = .ok values := by
  induction l generalizing values with
  | nil =>
    rw [List.map_nil, eq_comm, List.map_eq_nil_iff] at h
    rw [h]
    rfl
  | cons a l ih =>
    obtain ⟨value, values, rfl, ha, hl⟩ := List.map_eq_cons_iff.1 h.symm
    rw [List.mapM_cons, ← ha, ih hl.symm]
    rfl

theorem mapM_eq_error {before after : List α} {a : α} {failure : ε}
    (fine : ∀ b ∈ before, ∃ value, f b = .ok value) (fails : f a = .error failure) :
    (before ++ a :: after).mapM f = .error failure := by
  induction before with
  | nil =>
    rw [List.nil_append, List.mapM_cons, fails]
    rfl
  | cons b before ih =>
    obtain ⟨value, hb⟩ := fine b List.mem_cons_self
    rw [List.cons_append, List.mapM_cons, hb,
      ih fun c hc => fine c (List.mem_cons_of_mem b hc)]
    rfl

/-- Either all are read or there is a first that is not. -/
theorem all_or_first (f : α → Except ε β) (l : List α) :
    (∃ values : List β, l.map f = values.map .ok) ∨
      ∃ before a after failure, l = before ++ a :: after ∧
        (∀ b ∈ before, ∃ value, f b = .ok value) ∧ f a = .error failure := by
  induction l with
  | nil => exact .inl ⟨[], rfl⟩
  | cons a l ih =>
    cases ha : f a with
    | error failure => exact .inr ⟨[], a, l, failure, rfl, by simp, ha⟩
    | ok value =>
      rcases ih with ⟨values, hl⟩ | ⟨before, b, after, failure, rfl, fine, fails⟩
      · exact .inl ⟨value :: values, by rw [List.map_cons, List.map_cons, ha, hl]⟩
      · refine .inr ⟨a :: before, b, after, failure, rfl, ?_, fails⟩
        exact List.forall_mem_cons.2 ⟨⟨value, ha⟩, fine⟩

end First

/-! ### Tokens -/

/-- What stands between the commas of a field, without the blanks around it. -/
def tokens (field : List Char) : List (List Char) := (field.splitOn ',').map Text.trim

theorem tokens_ne_nil (field : List Char) : tokens field ≠ [] := by
  simp [tokens, List.splitOn_ne_nil]

/-- The token is the name of a qualifier. -/
def Known (token : List Char) : Prop := ∃ q : Qualifier, token = q.name.toList

theorem Known.ne_nil {token : List Char} (h : Known token) : token ≠ [] := by
  obtain ⟨q, rfl⟩ := h
  cases q <;> decide

/-- A blank field has one token, which is empty. -/
theorem tokens_of_blank {field : List Char} (h : ∀ c ∈ field, Text.isBlank c = true) :
    tokens field = [[]] := by
  have comma : ',' ∉ field := fun hc => absurd (h ',' hc) (by decide)
  have trimmed : Text.trim field = [] := by
    rw [Text.trim_eq_iff]
    exact ⟨Text.tight_of_forall (by simp), field, [], by simp, h, by simp⟩
  rw [tokens, List.splitOn_eq_singleton comma, List.map_singleton, trimmed]

theorem present_of_known {field : List Char} (known : ∀ token ∈ tokens field, Known token) :
    ∃ c ∈ field, Text.isBlank c = false := by
  by_contra blank
  have blank : ∀ c ∈ field, Text.isBlank c = true := by simpa using blank
  have none : Known [] := known [] (by simp [tokens_of_blank blank])
  exact none.ne_nil rfl

def readToken (token : List Char) : Except LineFault Qualifier := qualifier (String.ofList token)

theorem readToken_eq_ok {token : List Char} {q : Qualifier} :
    readToken token = .ok q ↔ token = q.name.toList := by
  have name : Qualifier.ofName? (String.ofList token) = some q ↔ token = q.name.toList := by
    rw [Qualifier.ofName?_eq_some, ← String.toList_inj, String.toList_ofList]
  rw [readToken, qualifier, ← name]
  split <;> simp_all

theorem readToken_of_unknown {token : List Char} (h : ¬ Known token) :
    readToken token = .error (.unknownQualifier (String.ofList token)) := by
  rw [readToken, qualifier]
  split
  · next q found => exact absurd ⟨q, readToken_eq_ok.1 (by rw [readToken, qualifier, found])⟩ h
  · rfl

theorem known_iff {token : List Char} : Known token ↔ ∃ q, readToken token = .ok q := by
  simp only [readToken_eq_ok, Known]

/-! ### Fields -/

/-- The field is a list of names, and the set has the qualifiers that they name. -/
structure Lists (field : List Char) (set : Qualifiers) : Prop where
  present : ∃ c ∈ field, Text.isBlank c = false
  known : ∀ token ∈ tokens field, Known token
  members : ∀ q : Qualifier, set.contains q = true ↔ q.name.toList ∈ tokens field

theorem qualifiers_of_present {field : List Char} (h : ∃ c ∈ field, Text.isBlank c = false) :
    qualifiers field = ((tokens field).mapM readToken).map Qualifiers.ofList := by
  have present : ¬ field.all Text.isBlank = true := by simpa using h
  rw [qualifiers, if_neg present, tokens, List.mapM_map]
  rfl

theorem qualifiers_of_blank {field : List Char} (h : ∀ c ∈ field, Text.isBlank c = true) :
    qualifiers field = .error .noQualifiers := by
  rw [qualifiers, if_pos (List.all_eq_true.2 h)]

theorem mem_of_map_readToken {field : List Char} {values : List Qualifier}
    (read : (tokens field).map readToken = values.map .ok) {q : Qualifier} :
    q ∈ values ↔ q.name.toList ∈ tokens field := by
  constructor
  · intro hq
    have : .ok q ∈ (tokens field).map readToken := read ▸ List.mem_map_of_mem hq
    obtain ⟨token, ht, named⟩ := List.mem_map.1 this
    exact readToken_eq_ok.1 named ▸ ht
  · intro ht
    have : readToken q.name.toList ∈ values.map .ok := read ▸ List.mem_map_of_mem ht
    rw [readToken_eq_ok.2 rfl] at this
    obtain ⟨p, hp, same⟩ := List.mem_map.1 this
    cases same
    exact hp

/-- Only the names that occur matter, and at least one does. -/
theorem Lists.of_same {field other : List Char} {set : Qualifiers} (h : Lists field set)
    (same : ∀ token, token ∈ tokens field ↔ token ∈ tokens other) : Lists other set := by
  have known : ∀ token ∈ tokens other, Known token := fun token ht =>
    h.known token ((same token).2 ht)
  exact ⟨present_of_known known, known, fun q => (h.members q).trans (same _)⟩

theorem Lists.ne_empty {field : List Char} {set : Qualifiers} (h : Lists field set) :
    set ≠ .empty := by
  obtain ⟨token, ht⟩ := List.exists_mem_of_ne_nil _ (tokens_ne_nil field)
  obtain ⟨q, rfl⟩ := h.known token ht
  exact Qualifiers.ne_empty_of_contains ((h.members q).2 ht)

theorem qualifiers_of_lists {field : List Char} {set : Qualifiers} (h : Lists field set) :
    qualifiers field = .ok set := by
  rcases all_or_first readToken (tokens field) with
    ⟨values, read⟩ | ⟨before, token, after, failure, split, -, fails⟩
  · have same : Qualifiers.ofList values = set := by
      refine Qualifiers.eq_of_contains fun q => ?_
      rw [Qualifiers.contains_ofList, h.members, mem_of_map_readToken read]
    rw [qualifiers_of_present h.present, mapM_eq_ok read, ← same]
    rfl
  · have known : Known token := h.known token (by simp [split])
    obtain ⟨q, hq⟩ := known_iff.1 known
    cases fails.symm.trans hq

theorem qualifiers_of_unknown {field : List Char} {before after : List (List Char)}
    {token : List Char} (present : ∃ c ∈ field, Text.isBlank c = false)
    (split : tokens field = before ++ token :: after) (fine : ∀ t ∈ before, Known t)
    (unknown : ¬ Known token) :
    qualifiers field = .error (.unknownQualifier (String.ofList token)) := by
  have fails : (before ++ token :: after).mapM readToken =
      .error (.unknownQualifier (String.ofList token)) :=
    mapM_eq_error (fun t ht => known_iff.1 (fine t ht)) (readToken_of_unknown unknown)
  rw [qualifiers_of_present present, split, fails]
  rfl

theorem lists_of_read {field : List Char} {values : List Qualifier}
    (present : ∃ c ∈ field, Text.isBlank c = false)
    (read : (tokens field).map readToken = values.map .ok) :
    Lists field (Qualifiers.ofList values) where
  present := present
  known token ht := by
    have : readToken token ∈ values.map .ok := read ▸ List.mem_map_of_mem ht
    obtain ⟨q, -, named⟩ := List.mem_map.1 this
    exact known_iff.2 ⟨q, named.symm⟩
  members q := by rw [Qualifiers.contains_ofList, mem_of_map_readToken read]

/-- A field lists a set, or is blank, or has a first token that is no name. -/
theorem lists_or_fault (field : List Char) :
    (∃ set, Lists field set) ∨ (∀ c ∈ field, Text.isBlank c = true) ∨
      (∃ c ∈ field, Text.isBlank c = false) ∧ ∃ before token after,
        tokens field = before ++ token :: after ∧ (∀ t ∈ before, Known t) ∧ ¬ Known token := by
  by_cases blank : ∀ c ∈ field, Text.isBlank c = true
  · exact .inr (.inl blank)
  have present : ∃ c ∈ field, Text.isBlank c = false := by simpa using blank
  rcases all_or_first readToken (tokens field) with
    ⟨values, read⟩ | ⟨before, token, after, failure, split, fine, fails⟩
  · exact .inl ⟨_, lists_of_read present read⟩
  · refine .inr (.inr ⟨present, before, token, after, split, fun t ht => ?_, fun known => ?_⟩)
    · exact known_iff.2 (fine t ht)
    · obtain ⟨q, hq⟩ := known_iff.1 known
      cases fails.symm.trans hq

end Report

end StackUsage

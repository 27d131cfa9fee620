import Mathlib.Data.List.DropRight
import Mathlib.Data.List.Infix
import StackUsage.Proofs.Annotation.RealPaths

/-! What the line check for bare file names asks of a line. The line has to be there and to hold the
name in the signature: what stands before the first parenthesis, behind the last space or colon. In
some signatures nothing stands there, such as that of a function which returns a pointer to a
function; then every line of the document passes. With this exception, a record that is known by a
bare file name alone is drawn only on a line that mentions its function. -/

namespace StackUsage

/-- A text occurs in another just if it is a contiguous part of it. -/
theorem Text.occursIn_iff {part s : List Char} : occursIn part s = true ↔ part <:+: s := by
  induction s with
  | nil => simp [occursIn]
  | cons c rest ih => rw [occursIn, Bool.or_eq_true, List.isPrefixOf_iff_prefix, ih,
      List.infix_cons_iff]

namespace Annotation

/-! ### The name in a signature -/

/-- What a signature says before its first parenthesis. -/
def declarator (signature : List Char) : List Char := signature.takeWhile (· ≠ '(')

/-- What divides the words before a name: a space or a colon. -/
def IsDivider (c : Char) : Prop := c = ' ' ∨ c = ':'

instance (c : Char) : Decidable (IsDivider c) := inferInstanceAs (Decidable (_ ∨ _))

/-- Nothing stands before the first parenthesis, or a divider stands last there. -/
def Nameless (signature : List Char) : Prop :=
  ∀ c, (declarator signature).getLast? = some c → IsDivider c

/-- The line holds some part, not empty, of what the signature says before its first parenthesis. -/
def Mentions (text signature : List Char) : Prop :=
  ∃ name, name ≠ [] ∧ name <:+: declarator signature ∧ name <:+: text

/-- The declarator ends at the first parenthesis. -/
theorem declarator_eq (signature : List Char) :
    '(' ∉ declarator signature ∧
      (signature = declarator signature ∨
        ∃ rest, signature = declarator signature ++ '(' :: rest) := by
  unfold declarator
  induction signature with
  | nil => simp
  | cons c signature ih =>
    obtain ⟨free, split⟩ := ih
    by_cases hc : c = '('
    · simp [hc]
    · rw [List.takeWhile_cons_of_pos (by simpa using hc)]
      refine ⟨by simpa [Ne.symm hc] using free, split.imp (congrArg _) ?_⟩
      rintro ⟨rest, he⟩
      exact ⟨rest, congrArg _ he⟩

theorem functionName_eq (signature : List Char) :
    functionName signature = (declarator signature).rtakeWhile fun c => !decide (IsDivider c) := by
  have same : ∀ c, (decide (c = ' ') || decide (c = ':')) = decide (IsDivider c) := fun c =>
    (Bool.decide_or _ _).symm
  simp only [functionName, afterLast, List.rtakeWhile, declarator, same]

/-- The name stands behind the last divider of the declarator. -/
theorem declarator_split (signature : List Char) :
    ∃ before, declarator signature = before ++ functionName signature ∧
      (∀ c, before.getLast? = some c → IsDivider c) ∧
      ∀ c ∈ functionName signature, ¬ IsDivider c := by
  rw [functionName_eq]
  refine ⟨(declarator signature).rdropWhile fun c => !decide (IsDivider c),
    (List.rdropWhile_append_rtakeWhile ..).symm, fun c hc => ?_, fun c hc => ?_⟩
  · obtain ⟨ne, rfl⟩ := List.mem_getLast?_eq_getLast hc
    simpa using List.rdropWhile_last_not _ _ ne
  · simpa using List.mem_rtakeWhile_imp hc

theorem functionName_eq_nil {signature : List Char} :
    functionName signature = [] ↔ Nameless signature := by
  rw [functionName_eq, List.rtakeWhile_eq_nil_iff, Nameless]
  constructor
  · intro h c hc
    obtain ⟨ne, rfl⟩ := List.mem_getLast?_eq_getLast hc
    simpa using h ne
  · intro h ne
    simpa using h _ (List.getLast?_eq_some_getLast ne)

/-! ### The line check -/

variable {u : Usage} {doc : Document}

theorem lineOf?_eq_some {text : String} :
    lineOf? u doc = some text ↔ u.line ≠ 0 ∧ doc.line? (u.line.toNat - 1) = some text := by
  unfold lineOf? lineIndex?
  by_cases hl : u.line = 0 <;> simp [hl]

theorem fits_eq_true : fits u doc = true ↔ ∃ text, lineOf? u doc = some text ∧
    functionName u.signature.toList <:+: text.toList := by
  unfold fits
  cases lineOf? u doc with
  | none => simp
  | some text => simp [Text.occursIn_iff]

/-- A signature that has a name passes only on a line that mentions it. -/
theorem mentions_of_fits (named : ¬ Nameless u.signature.toList) (h : fits u doc = true) :
    ∃ text, lineOf? u doc = some text ∧ Mentions text.toList u.signature.toList := by
  obtain ⟨text, there, occurs⟩ := fits_eq_true.1 h
  obtain ⟨before, split, -⟩ := declarator_split u.signature.toList
  refine ⟨text, there, functionName u.signature.toList, mt functionName_eq_nil.1 named, ?_, occurs⟩
  exact ⟨before, [], by rw [split, List.append_nil]⟩

/-- Without a name to look for, the line only has to be there. -/
theorem fits_of_nameless (nameless : Nameless u.signature.toList) :
    fits u doc = true ↔ ∃ text, lineOf? u doc = some text := by
  rw [fits_eq_true, functionName_eq_nil.2 nameless]
  simp

/-- What is drawn at a line stems from a record for the real path, or from one for the bare file
name whose function the line mentions as far as it has a name. -/
theorem mentioned_of_mem_decorations {index : Index} {real : Path} {dec : Decoration}
    (h : dec ∈ decorations (usagesFor index real doc) doc) :
    ∃ u ∈ index.usages, dec.hover = u.signature ∧ dec.line + 1 = u.line.toNat ∧
      (u.declaredPath = real.spelling ∨ real.fileName = some u.declaredPath ∧
        (Nameless u.signature.toList ∨
          ∃ text, doc.line? dec.line = some text ∧ Mentions text.toList u.signature.toList)) := by
  obtain ⟨u, hu, placed, -, rfl⟩ := mem_decorations.1 h
  obtain ⟨listed, declared⟩ := mem_usagesFor.1 hu
  have counted : u.line.toNat ≠ 0 := fun he => placed (UInt32.toNat_inj.1 he)
  refine ⟨u, listed, rfl, Nat.sub_add_cancel (Nat.pos_of_ne_zero counted),
    declared.imp_right fun ⟨bare, fitting⟩ => ⟨bare, ?_⟩⟩
  by_cases named : Nameless u.signature.toList
  · exact .inl named
  · obtain ⟨text, there, mentions⟩ := mentions_of_fits named fitting
    exact .inr ⟨text, (lineOf?_eq_some.1 there).2, mentions⟩

/-- What the function name of a signature is: what stands before the first parenthesis, behind the
last space or colon. None is there just if that part is empty or ends with a space or colon. -/
structure HasName (signature : List Char) : Prop where
  front : '(' ∉ declarator signature
  opened : signature = declarator signature ∨
    ∃ rest, signature = declarator signature ++ '(' :: rest
  split : ∃ before, declarator signature = before ++ functionName signature ∧
    (∀ c, before.getLast? = some c → IsDivider c) ∧ ∀ c ∈ functionName signature, ¬ IsDivider c
  nameless : functionName signature = [] ↔ Nameless signature

/-- What the line check asks for: that the line is there and holds the name. Where there is no name,
any line will do. -/
structure ChecksLine (u : Usage) (doc : Document) : Prop where
  line : ∀ text, lineOf? u doc = some text ↔
    u.line ≠ 0 ∧ doc.line? (u.line.toNat - 1) = some text
  passes : fits u doc = true ↔ ∃ text, lineOf? u doc = some text ∧
    functionName u.signature.toList <:+: text.toList
  named : ¬ Nameless u.signature.toList → fits u doc = true →
    ∃ text, lineOf? u doc = some text ∧ Mentions text.toList u.signature.toList
  nameless : Nameless u.signature.toList →
    (fits u doc = true ↔ ∃ text, lineOf? u doc = some text)

/-- What is drawn on a document: records for its real path, and records for the bare file name whose
function the line mentions as far as it has a name. -/
structure DrawsMentioned (index : Index) (real : Path) (doc : Document) : Prop where
  name : ∀ signature, HasName signature
  check : ∀ u, ChecksLine u doc
  drawn : ∀ dec ∈ decorations (usagesFor index real doc) doc,
    ∃ u ∈ index.usages, dec.hover = u.signature ∧ dec.line + 1 = u.line.toNat ∧
      (u.declaredPath = real.spelling ∨ real.fileName = some u.declaredPath ∧
        (Nameless u.signature.toList ∨
          ∃ text, doc.line? dec.line = some text ∧ Mentions text.toList u.signature.toList))

/-- The line check asks for the function's name, unless none stands in front. A record fits a
document only if its line is there. Where its signature has a name, the line also holds that name;
where it has none, any line will do. So what is drawn for a bare file name is on a line that
mentions the function, if it has a name. -/
theorem mentioned_unless_nameless (index : Index) (real : Path) (doc : Document) :
    DrawsMentioned index real doc where
  name signature :=
    ⟨(declarator_eq signature).1, (declarator_eq signature).2, declarator_split signature,
      functionName_eq_nil⟩
  check _ := ⟨fun _ => lineOf?_eq_some, fits_eq_true, mentions_of_fits, fits_of_nameless⟩
  drawn _ := mentioned_of_mem_decorations

/-! ### A name that does not stand in front -/

/-- A function of a file that was not found, so that the bare name was kept. -/
def strayUsage (signature : String) : Usage := ⟨"m.c", 1, 1, signature, 16, ⟨true, false, false⟩⟩

def strayIndex (signature : String) : Index := Index.empty.apply "m.c" [strayUsage signature]

def pageOf (line : String) : Document := ⟨⟨"/w/m.c"⟩, [line]⟩

theorem mentioned_unless_nameless_scoped :
    fits (strayUsage "int a::pick(int)") (pageOf "a::pick()") = true ∧
      Mentions "a::pick()".toList "int a::pick(int)".toList ∧
      fits (strayUsage "int a::pick(int)") (pageOf "//") = false := by
  have law :=
    mentioned_unless_nameless (strayIndex "int a::pick(int)") ⟨"/w/m.c"⟩ (pageOf "a::pick()")
  have fitting : fits (strayUsage "int a::pick(int)") (pageOf "a::pick()") = true := by
    decide +kernel
  have named : ¬ Nameless "int a::pick(int)".toList :=
    mt functionName_eq_nil.2 (by decide +kernel)
  obtain ⟨text, there, mentioned⟩ := (law.check (strayUsage "int a::pick(int)")).named named fitting
  cases there.symm.trans (show _ = some "a::pick()" by decide +kernel)
  exact ⟨fitting, mentioned, by decide +kernel⟩

/-- A function that returns a pointer to a function is drawn at a line that has nothing in common
with its signature. -/
theorem nameless_drawn_anywhere :
    publish (.still ⟨[['w']], []⟩) .default (strayIndex "void (* pick(int))(int)") .all
        [pageOf "//"] = [(⟨"/w/m.c"⟩, [⟨0, "void (* pick(int))(int)", "16 bytes"⟩])] ∧
      (∀ u ∈ (strayIndex "void (* pick(int))(int)").usages, u.declaredPath = "m.c") ∧
      ¬ Mentions "//".toList "void (* pick(int))(int)".toList := by
  refine ⟨by decide +kernel, by decide +kernel, ?_⟩
  rintro ⟨name, ne, declared, drawn⟩
  obtain ⟨c, rest, rfl⟩ := List.exists_cons_of_ne_nil ne
  have slash : c = '/' := by simpa using drawn.subset List.mem_cons_self
  have apart : '/' ∉ declarator "void (* pick(int))(int)".toList := by decide +kernel
  exact apart (slash ▸ declared.subset List.mem_cons_self)

end Annotation

end StackUsage

import StackUsage.Proofs.Report.Identifier
import StackUsage.Proofs.Report.Qualifiers

/-! The lines that are records. A line has three fields with tabs between them: an identifier, a
number of bytes, and qualifiers. Faults are looked for in this order, and the first that is there is
the answer; a line without a fault says exactly one record. A record is read back from the line it
is written as, unless its path or signature has characters that mean something there. -/

namespace StackUsage

/-- Where the function is, and what it is called. -/
def Usage.identifier (u : Usage) : Report.Identifier :=
  ⟨u.declaredPath, u.line, u.column, u.signature⟩

/-- The names of the members with commas between them. -/
def Qualifiers.written (s : Qualifiers) : List Char :=
  [','].intercalate (s.toList.map fun q => q.name.toList)

/-- The record as a line of a report. -/
def Usage.written (u : Usage) : List Char :=
  ['\t'].intercalate
    [u.identifier.written, Text.numeral u.bytes.toNat, u.qualifiers.written]

/-- The record has a path and qualifiers, and no character of its texts means something in a line.
Colons and digits are fine in the signature. -/
structure Usage.Plain (u : Usage) : Prop where
  named : u.declaredPath ≠ ""
  path : ∀ c ∈ u.declaredPath.toList, c ≠ ':' ∧ c ≠ '\t' ∧ c ≠ '\n'
  signature : ∀ c ∈ u.signature.toList, c ≠ '\t' ∧ c ≠ '\n'
  qualified : u.qualifiers ≠ .empty

namespace Report

/-! ### Records and faults -/

/-- A number of bytes, blanks around it and a plus sign in front allowed. -/
def Counts (field : List Char) (bytes : Nat) : Prop := Text.DenotesSigned (Text.trim field) bytes

/-- The line is in the grammar, and says this of a function. -/
inductive Says (line : List Char) (u : Usage) : Prop
  | intro {place count kinds : List Char} (fields : line.splitOn '\t' = [place, count, kinds])
    (identified : identifier? place = some u.identifier) (counted : Counts count u.bytes.toNat)
    (listed : Lists kinds u.qualifiers)

/-- The number of bytes is there and fits 64 bits. -/
def Countable (field : List Char) : Prop := ∃ bytes < UInt64.size, Counts field bytes

/-- What is wrong with the line first. -/
inductive FirstFault (line : List Char) : LineFault → Prop
  | fieldCount (fields : (line.splitOn '\t').length ≠ 3) :
    FirstFault line (.fieldCount (line.splitOn '\t').length)
  | identifier {place count kinds : List Char} (fields : line.splitOn '\t' = [place, count, kinds])
    (unidentified : identifier? place = none) : FirstFault line (.identifier (String.ofList place))
  | byteCount {place count kinds : List Char} (fields : line.splitOn '\t' = [place, count, kinds])
    (identified : identifier? place ≠ none) (uncountable : ¬ Countable count) :
    FirstFault line (.byteCount (String.ofList count))
  | noQualifiers {place count kinds : List Char}
    (fields : line.splitOn '\t' = [place, count, kinds]) (identified : identifier? place ≠ none)
    (countable : Countable count) (blank : ∀ c ∈ kinds, Text.isBlank c = true) :
    FirstFault line .noQualifiers
  | unknownQualifier {place count kinds token : List Char} {before after : List (List Char)}
    (fields : line.splitOn '\t' = [place, count, kinds]) (identified : identifier? place ≠ none)
    (countable : Countable count) (present : ∃ c ∈ kinds, Text.isBlank c = false)
    (split : tokens kinds = before ++ token :: after) (fine : ∀ t ∈ before, Known t)
    (unknown : ¬ Known token) : FirstFault line (.unknownQualifier (String.ofList token))

theorem readUInt64?_eq_none {field : List Char} (h : ¬ Countable field) :
    Text.readUInt64? (Text.trim field) = none := by
  rw [Option.eq_none_iff_forall_ne_some]
  exact fun n hn => h ⟨n.toNat, n.toNat_lt_size, Text.readUInt64?_eq_some.1 hn⟩

theorem Countable.exists_read {field : List Char} (h : Countable field) :
    ∃ bytes : UInt64, Text.readUInt64? (Text.trim field) = some bytes ∧
      Counts field bytes.toNat := by
  obtain ⟨n, small, counted⟩ := h
  rw [← UInt64.toNat_ofNat_of_lt' small] at counted
  exact ⟨UInt64.ofNat n, Text.readUInt64?_eq_some.2 counted, counted⟩

/-! ### One line -/

section Line

variable {line place count kinds : List Char}

theorem parseLine_unidentified (fields : line.splitOn '\t' = [place, count, kinds])
    (h : identifier? place = none) :
    parseLine line = .error (.identifier (String.ofList place)) := by
  rw [parseLine, fields]
  simp only [h]

theorem parseLine_uncountable (fields : line.splitOn '\t' = [place, count, kinds])
    (identified : identifier? place ≠ none) (h : ¬ Countable count) :
    parseLine line = .error (.byteCount (String.ofList count)) := by
  obtain ⟨identifier, found⟩ := Option.ne_none_iff_exists'.1 identified
  rw [parseLine, fields]
  simp only [found, readUInt64?_eq_none h]

/-- Once place and number are there, the qualifiers decide. -/
theorem parseLine_counted {identifier : Identifier} {bytes : UInt64}
    (fields : line.splitOn '\t' = [place, count, kinds])
    (identified : identifier? place = some identifier) (counted : Counts count bytes.toNat) :
    parseLine line = (qualifiers kinds).map fun set =>
      ⟨identifier.path, identifier.line, identifier.column, identifier.signature, bytes, set⟩ := by
  have read : Text.readUInt64? (Text.trim count) = some bytes := Text.readUInt64?_eq_some.2 counted
  rw [parseLine, fields]
  simp only [identified, read]

theorem parseLine_ill_listed {failure : LineFault}
    (fields : line.splitOn '\t' = [place, count, kinds]) (identified : identifier? place ≠ none)
    (countable : Countable count) (h : qualifiers kinds = .error failure) :
    parseLine line = .error failure := by
  obtain ⟨identifier, found⟩ := Option.ne_none_iff_exists'.1 identified
  obtain ⟨bytes, -, counted⟩ := countable.exists_read
  rw [parseLine_counted fields found counted, h]
  rfl

end Line

theorem Says.parseLine_eq {line : List Char} {u : Usage} (h : Says line u) :
    parseLine line = .ok u := by
  obtain ⟨fields, identified, counted, listed⟩ := h
  rw [parseLine_counted fields identified counted, qualifiers_of_lists listed]
  rfl

theorem parseLine_of_firstFault {line : List Char} {fault : LineFault}
    (h : FirstFault line fault) : parseLine line = .error fault := by
  cases h with
  | fieldCount fields =>
    rw [parseLine]
    split
    · next whole => simp [whole] at fields
    · rfl
  | identifier fields unidentified => exact parseLine_unidentified fields unidentified
  | byteCount fields identified uncountable =>
    exact parseLine_uncountable fields identified uncountable
  | noQualifiers fields identified countable blank =>
    exact parseLine_ill_listed fields identified countable (qualifiers_of_blank blank)
  | unknownQualifier fields identified countable present split fine unknown =>
    exact parseLine_ill_listed fields identified countable
      (qualifiers_of_unknown present split fine unknown)

theorem says_or_fault (line : List Char) :
    (∃ u, Says line u) ∨ ∃ fault, FirstFault line fault := by
  by_cases three : (line.splitOn '\t').length = 3
  swap
  · exact .inr ⟨_, .fieldCount three⟩
  obtain ⟨place, count, kinds, fields⟩ := List.length_eq_three.1 three
  cases identified : identifier? place with
  | none => exact .inr ⟨_, .identifier fields identified⟩
  | some identifier =>
    have there : identifier? place ≠ none := by simp [identified]
    by_cases countable : Countable count
    swap
    · exact .inr ⟨_, .byteCount fields there countable⟩
    obtain ⟨bytes, -, counted⟩ := countable.exists_read
    rcases lists_or_fault kinds with ⟨set, listed⟩ | blank | ⟨present, h⟩
    · exact .inl ⟨⟨identifier.path, identifier.line, identifier.column, identifier.signature,
        bytes, set⟩, fields, identified, counted, listed⟩
    · exact .inr ⟨_, .noQualifiers fields there countable blank⟩
    · obtain ⟨before, token, after, split, fine, unknown⟩ := h
      exact .inr ⟨_, .unknownQualifier fields there countable present split fine unknown⟩

theorem parseLine_eq_ok {line : List Char} {u : Usage} : parseLine line = .ok u ↔ Says line u := by
  constructor
  · intro h
    rcases says_or_fault line with ⟨other, said⟩ | ⟨fault, first⟩
    · cases h.symm.trans said.parseLine_eq
      exact said
    · cases h.symm.trans (parseLine_of_firstFault first)
  · exact Says.parseLine_eq

theorem parseLine_eq_error {line : List Char} {fault : LineFault} :
    parseLine line = .error fault ↔ FirstFault line fault := by
  constructor
  · intro h
    rcases says_or_fault line with ⟨u, said⟩ | ⟨other, first⟩
    · cases h.symm.trans said.parseLine_eq
    · cases h.symm.trans (parseLine_of_firstFault first)
      exact first
  · exact parseLine_of_firstFault

theorem Says.of_same {line other place count kinds kinds' : List Char} {u : Usage}
    (h : Says line u) (fields : line.splitOn '\t' = [place, count, kinds])
    (others : other.splitOn '\t' = [place, count, kinds'])
    (same : ∀ token, token ∈ tokens kinds ↔ token ∈ tokens kinds') : Says other u := by
  obtain ⟨split, identified, counted, listed⟩ := h
  cases fields.symm.trans split
  exact ⟨others, identified, counted, listed.of_same same⟩

/-! ### Written lines -/

theorem tokens_written {s : Qualifiers} (h : s ≠ .empty) :
    tokens s.written = s.toList.map fun q => q.name.toList := by
  have plain : ∀ name ∈ s.toList.map fun q => q.name.toList, ',' ∉ name := by
    refine List.forall_mem_map.2 fun q _ => ?_
    cases q <;> decide
  have tight : ∀ q : Qualifier, Text.trim q.name.toList = q.name.toList := fun q => by
    cases q <;> decide
  rw [tokens, Qualifiers.written, List.splitOn_intercalate ',' plain, List.map_map]
  · exact List.map_congr_left fun q _ => tight q
  · simpa using Qualifiers.toList_ne_nil h

theorem lists_written {s : Qualifiers} (h : s ≠ .empty) : Lists s.written s := by
  have known : ∀ token ∈ tokens s.written, Known token := by
    rw [tokens_written h]
    exact List.forall_mem_map.2 fun q _ => ⟨q, rfl⟩
  refine ⟨present_of_known known, known, fun q => ?_⟩
  rw [tokens_written h, ← Qualifiers.mem_toList, List.mem_map]
  constructor
  · exact fun hq => ⟨q, hq, rfl⟩
  · rintro ⟨p, hp, same⟩
    exact Qualifier.eq_of_name (String.toList_inj.1 same) ▸ hp

theorem tab_not_mem_written (s : Qualifiers) : '\t' ∉ s.written := by
  rcases s with ⟨_ | _, _ | _, _ | _⟩ <;> decide

theorem says_written {u : Usage} (h : u.Plain) : Says u.written u := by
  have place : '\t' ∉ u.identifier.written :=
    not_mem_written (by decide) (by decide) (fun hc => (h.path _ hc).2.1 rfl)
      fun hc => (h.signature _ hc).1 rfl
  have count : '\t' ∉ Text.numeral u.bytes.toNat := Text.not_mem_numeral (by decide) _
  have fields : u.written.splitOn '\t' =
      [u.identifier.written, Text.numeral u.bytes.toNat, u.qualifiers.written] := by
    refine List.splitOn_intercalate '\t' ?_ (by simp)
    simp only [List.forall_mem_cons]
    exact ⟨place, count, tab_not_mem_written _, by simp⟩
  refine ⟨fields, ?_, ?_, lists_written h.qualified⟩
  · exact identifier?_written h.named (fun hc => (h.path _ hc).1 rfl)
      (fun hc => (h.path _ hc).2.2 rfl) fun hc => (h.signature _ hc).2 rfl
  · rw [Counts, (Text.tight_numeral _).trim_eq]
    exact ⟨_, .inl rfl, Text.denotes_numeral _⟩

/-- A line is read just if it is in the grammar, and otherwise its first fault is named. A line
that is read says exactly the record that comes of it. A line that is not has one first fault, which
is the answer, with the text at fault. Every record has a qualifier, and only the set of tokens
matters for which: two lines that differ in their order, in repetitions or in the blanks around them
say the same. A record whose texts are plain is read back from the line that it is written as. -/
theorem parseLine_grammar (line : List Char) :
    (∀ u, parseLine line = .ok u ↔ Says line u) ∧
    (∀ fault, parseLine line = .error fault ↔ FirstFault line fault) ∧
    (∀ u, parseLine line = .ok u → u.qualifiers ≠ .empty) ∧
    (∀ other place count kinds kinds', line.splitOn '\t' = [place, count, kinds] →
      other.splitOn '\t' = [place, count, kinds'] →
      (∀ token, token ∈ tokens kinds ↔ token ∈ tokens kinds') →
      ∀ u, parseLine line = .ok u → parseLine other = .ok u) ∧
    ∀ u : Usage, u.Plain → parseLine u.written = .ok u := by
  refine ⟨fun _ => parseLine_eq_ok, fun _ => parseLine_eq_error, fun u read => ?_,
    fun other place count kinds kinds' fields others same u read => ?_, fun u plain => ?_⟩
  · obtain ⟨-, -, -, listed⟩ := parseLine_eq_ok.1 read
    exact listed.ne_empty
  · exact ((parseLine_eq_ok.1 read).of_same fields others same).parseLine_eq
  · exact (says_written plain).parseLine_eq

/-! ### Blanks and two faults -/

/-- A line with blanks, a plus sign, leading zeros and a repeated qualifier. -/
def padded : List Char := "m.c:1:5:f:2\t +016 \tdynamic, static ,dynamic".toList

def paddedUsage : Usage := ⟨"m.c", 1, 5, "f:2", 16, ⟨true, true, false⟩⟩

theorem parseLine_padded : parseLine padded = .ok paddedUsage := by decide +kernel

/-- A line with a bad number of bytes and a bad qualifier. -/
def faulty : List Char := "m.c:1:5:f\t-8\tdyn".toList

theorem parseLine_grammar_padded :
    Says padded paddedUsage ∧ paddedUsage.qualifiers ≠ .empty ∧
      parseLine "m.c:1:5:f:2\t +016 \tstatic,dynamic".toList = .ok paddedUsage ∧
      parseLine paddedUsage.written = .ok paddedUsage ∧ FirstFault faulty (.byteCount "-8") := by
  obtain ⟨read, -, qualified, alike, written⟩ := parseLine_grammar padded
  refine ⟨(read _).1 parseLine_padded, qualified _ parseLine_padded, ?_, written _ ?_, ?_⟩
  · refine alike _ "m.c:1:5:f:2".toList " +016 ".toList "dynamic, static ,dynamic".toList
      "static,dynamic".toList (by decide) (by decide) (fun token => ?_) _ parseLine_padded
    have more : tokens "dynamic, static ,dynamic".toList =
      ["dynamic".toList, "static".toList, "dynamic".toList] := by decide
    have fewer : tokens "static,dynamic".toList = ["static".toList, "dynamic".toList] := by decide
    rw [more, fewer]
    simp only [List.mem_cons, List.not_mem_nil, or_false]
    tauto
  · exact ⟨by decide, by simp [paddedUsage], by simp [paddedUsage], by decide⟩
  · exact ((parseLine_grammar faulty).2.1 _).1 (by decide +kernel)

end Report

end StackUsage

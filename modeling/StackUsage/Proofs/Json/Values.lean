import StackUsage.Proofs.Json.Tokens

/-! Printed values are read again. A value is spelled by a list of tokens, and the reader takes
these tokens for the value wherever it expects one. The printed text consists of the tokens of the
value as it is read again, with blanks between them, provided that its numbers are numerals. So
parsing what was printed gives back the value, but for the spelling of its strings. -/

namespace StackUsage.Json

/-- What a container has if all its parts have it, every value has. -/
@[elab_as_elim, induction_eliminator]
theorem ind {motive : Json → Prop} (null : motive .null) (bool : ∀ b, motive (.bool b))
    (number : ∀ literal, motive (.number literal)) (string : ∀ symbols, motive (.string symbols))
    (array : ∀ items, (∀ v ∈ items, motive v) → motive (.array items))
    (object : ∀ members, (∀ m ∈ members, motive m.2) → motive (.object members)) :
    ∀ v, motive v
  | .null => null
  | .bool b => bool b
  | .number literal => number literal
  | .string symbols => string symbols
  | .array items => array items fun v _ => ind null bool number string array object v
  | .object members => object members fun m _ => ind null bool number string array object m.2
decreasing_by
  · decreasing_tactic
  · next here =>
    have := List.sizeOf_lt_of_mem here
    cases m
    simp_all
    omega

/-! ### Reading the tokens of a value -/

mutual

/-- The tokens that spell a value. -/
def tokens : Json → List Token
  | .null => [.null]
  | .bool b => [.bool b]
  | .number literal => [.number literal]
  | .string symbols => [.string symbols]
  | .array items => .openArray :: itemTokens items ++ [.closeArray]
  | .object members => .openObject :: memberTokens members ++ [.closeObject]

def itemTokens : List Json → List Token
  | [] => []
  | [v] => tokens v
  | v :: rest => tokens v ++ .comma :: itemTokens rest

def memberTokens : List (List Symbol × Json) → List Token
  | [] => []
  | [(key, v)] => .string key :: .colon :: tokens v
  | (key, v) :: rest => .string key :: .colon :: tokens v ++ .comma :: memberTokens rest

end

/-- Where a value may come, a token that does not close an array begins one. The first place of an
array is such a place as well. -/
theorem Reading.step_beginValue {e : Expected} (next : e = .value ∨ e = .firstItem)
    (frames : List Frame) {token : Token} (h : token ≠ .closeArray) :
    step ⟨e, frames, none⟩ token = beginValue frames token := by
  rcases next with rfl | rfl
  · rfl
  · unfold step
    split
    case h_1 => exact absurd rfl h
    case h_3 => rfl
    all_goals contradiction

/-- Wherever a value may come, the tokens of this one are read as the value. -/
def Spelled (v : Json) : Prop :=
  ∀ (e : Expected) (frames : List Frame), e = .value ∨ e = .firstItem →
    v.tokens.foldlM Reading.step ⟨e, frames, none⟩ = Reading.finish frames v

theorem foldlM_itemTokens {items : List Json} (spelled : ∀ v ∈ items, v.Spelled)
    (ne : items ≠ []) {e : Expected} (next : e = .value ∨ e = .firstItem) (done : List Json)
    (frames : List Frame) :
    (itemTokens items).foldlM Reading.step ⟨e, .array done :: frames, none⟩ =
      some ⟨.after, .array (items.reverse ++ done) :: frames, none⟩ := by
  induction items generalizing e done with
  | nil => exact absurd rfl ne
  | cons v items ih =>
    have first := spelled v List.mem_cons_self e (.array done :: frames) next
    -- the last item has no comma behind it, so the printer and the reader split there too
    cases items with
    | nil => exact first
    | cons w items =>
      have others := ih (fun u hu => spelled u (List.mem_cons_of_mem v hu)) (List.cons_ne_nil _ _)
        (.inl rfl) (v :: done)
      rw [itemTokens, List.foldlM_append, first, List.reverse_cons, List.append_assoc]
      · exact others
      · exact List.cons_ne_nil _ _

theorem foldlM_memberTokens {members : List (List Symbol × Json)}
    (spelled : ∀ m ∈ members, m.2.Spelled) (ne : members ≠ []) {e : Expected}
    (next : e = .key ∨ e = .firstMember) (done : List (List Symbol × Json))
    (frames : List Frame) :
    (memberTokens members).foldlM Reading.step ⟨e, .object done :: frames, none⟩ =
      some ⟨.after, .object (members.reverse ++ done) :: frames, none⟩ := by
  induction members generalizing e done with
  | nil => exact absurd rfl ne
  | cons m members ih =>
    obtain ⟨key, v⟩ := m
    have named : Reading.step ⟨e, .object done :: frames, none⟩ (.string key) =
        some ⟨.colon, .member done key :: frames, none⟩ := by
      rcases next with rfl | rfl <;> rfl
    have first := spelled (key, v) List.mem_cons_self .value (.member done key :: frames) (.inl rfl)
    cases members with
    | nil =>
      rw [memberTokens, List.foldlM_cons, named]
      exact first
    | cons m members =>
      have others := ih (fun u hu => spelled u (List.mem_cons_of_mem _ hu)) (List.cons_ne_nil _ _)
        (.inl rfl) ((key, v) :: done)
      rw [memberTokens, List.cons_append, List.cons_append, List.foldlM_cons, named,
        List.reverse_cons, List.append_assoc]
      · change (v.tokens ++ .comma :: memberTokens (m :: members)).foldlM Reading.step
          ⟨.value, .member done key :: frames, none⟩ = _
        rw [List.foldlM_append, first]
        exact others
      · exact List.cons_ne_nil _ _

theorem foldlM_beginValue {e : Expected} (next : e = .value ∨ e = .firstItem)
    (frames : List Frame) (token : Token) (h : token ≠ .closeArray) (tokens : List Token) :
    (token :: tokens).foldlM Reading.step ⟨e, frames, none⟩ =
      (Reading.beginValue frames token).bind fun r => tokens.foldlM Reading.step r := by
  rw [List.foldlM_cons, Reading.step_beginValue next frames h]
  rfl

/-- A value of one token is that token. -/
theorem spelled_of_token {v : Json} {token : Token} (alone : v.tokens = [token])
    (h : token ≠ .closeArray)
    (begins : ∀ frames, Reading.beginValue frames token = Reading.finish frames v) :
    v.Spelled := by
  intro e frames next
  rw [alone, foldlM_beginValue next frames token h, begins]
  exact Option.bind_fun_some _

theorem spelled (v : Json) : v.Spelled := by
  induction v with
  | null => exact spelled_of_token rfl nofun fun _ => rfl
  | bool b => exact spelled_of_token rfl nofun fun _ => rfl
  | number literal => exact spelled_of_token rfl nofun fun _ => rfl
  | string symbols => exact spelled_of_token rfl nofun fun _ => rfl
  | array items ih =>
    intro e frames next
    rw [tokens, List.cons_append, foldlM_beginValue next frames .openArray nofun]
    change (itemTokens items ++ [Token.closeArray]).foldlM Reading.step
      ⟨.firstItem, .array [] :: frames, none⟩ = _
    by_cases ne : items = []
    · rw [ne]
      exact Option.bind_fun_some _
    · have read := foldlM_itemTokens ih ne (.inr rfl) [] frames
      have close : [Token.closeArray].foldlM Reading.step
          ⟨.after, .array (items.reverse ++ []) :: frames, none⟩ =
            Reading.finish frames (.array (items.reverse ++ []).reverse) := Option.bind_fun_some _
      rw [List.foldlM_append, read]
      refine close.trans ?_
      rw [List.append_nil, List.reverse_reverse]
  | object members ih =>
    intro e frames next
    rw [tokens, List.cons_append, foldlM_beginValue next frames .openObject nofun]
    change (memberTokens members ++ [Token.closeObject]).foldlM Reading.step
      ⟨.firstMember, .object [] :: frames, none⟩ = _
    by_cases ne : members = []
    · rw [ne]
      exact Option.bind_fun_some _
    · have read := foldlM_memberTokens ih ne (.inr rfl) [] frames
      have close : [Token.closeObject].foldlM Reading.step
          ⟨.after, .object (members.reverse ++ []) :: frames, none⟩ =
            Reading.finish frames (.object (members.reverse ++ []).reverse) :=
        Option.bind_fun_some _
      rw [List.foldlM_append, read]
      refine close.trans ?_
      rw [List.append_nil, List.reverse_reverse]

mutual

/-- The value as it is read again: the same, but for the spelling of its strings. -/
def reread : Json → Json
  | .null => .null
  | .bool b => .bool b
  | .number literal => .number literal
  | .string symbols => .string (symbols.map Symbol.reread)
  | .array items => .array (rereadItems items)
  | .object members => .object (rereadMembers members)

def rereadItems : List Json → List Json
  | [] => []
  | v :: rest => reread v :: rereadItems rest

def rereadMembers : List (List Symbol × Json) → List (List Symbol × Json)
  | [] => []
  | (key, v) :: rest => (key.map Symbol.reread, reread v) :: rereadMembers rest

end

/-- All numbers in the value are numerals: no sign, point or exponent and no leading zero. -/
inductive Plain : Json → Prop
  | null : Plain .null
  | bool (b : Bool) : Plain (.bool b)
  | number (n : Nat) : Plain (.number (Text.numeral n))
  | string (symbols : List Symbol) : Plain (.string symbols)
  | array {items : List Json} : (∀ v ∈ items, Plain v) → Plain (.array items)
  | object {members : List (List Symbol × Json)} : (∀ m ∈ members, Plain m.2) →
    Plain (.object members)

/-- In front of any text that could not continue it, the printed value is read as its tokens. -/
def Legible (v : Json) : Prop :=
  ∀ (level : Nat) {rest : List Char} {behind : List Token}, Closes rest →
    tokens? rest = some behind →
    tokens? (indented level v ++ rest) = some (v.reread.tokens ++ behind)

theorem closes_comma (rest : List Char) : Closes (',' :: rest) := by
  rintro _ ⟨⟩
  decide

theorem closes_newline (level : Nat) (rest : List Char) : Closes (newline level ++ rest) := by
  rintro _ ⟨⟩
  decide

theorem tokens?_newline (level : Nat) (s : List Char) :
    tokens? (newline level ++ s) = tokens? s := by
  refine tokens?_space fun c hc => ?_
  rcases List.mem_cons.1 hc with rfl | hc
  · rfl
  · rw [List.eq_of_mem_replicate hc]
    rfl

theorem tokens?_writeString (symbols : List Symbol) {rest : List Char} {behind : List Token}
    (read : tokens? rest = some behind) :
    tokens? (writeString symbols ++ rest) =
      some (.string (symbols.map Symbol.reread) :: behind) := by
  refine tokens?_token ?_ read
  rw [writeString, List.cons_append, List.cons_append, List.append_assoc]
  change (stringBody? (symbols.flatMap writeSymbol ++ '"' :: rest)).map _ = _
  rw [stringBody?_written]
  rfl

theorem tokens?_indentedItems {items : List Json} (legible : ∀ v ∈ items, v.Legible)
    (level : Nat) {rest : List Char} {behind : List Token} (closes : Closes rest)
    (read : tokens? rest = some behind) :
    tokens? (indentedItems level items ++ rest) =
      some (itemTokens (rereadItems items) ++ behind) := by
  induction items with
  | nil => exact read
  | cons v items ih =>
    have first : v.Legible := legible v List.mem_cons_self
    cases items with
    | nil =>
      rw [indentedItems, List.append_assoc, tokens?_newline]
      exact first level closes read
    | cons w items =>
      have others := ih fun u hu => legible u (List.mem_cons_of_mem v hu)
      have comma : tokens? (',' :: (indentedItems level (w :: items) ++ rest)) =
          some (.comma :: (itemTokens (rereadItems (w :: items)) ++ behind)) :=
        tokens?_token rfl others
      have both := first level (closes_comma _) comma
      rw [indentedItems, List.append_assoc, List.append_assoc, tokens?_newline]
      · rw [rereadItems, rereadItems, itemTokens, ← rereadItems, List.append_assoc]
        · exact both
        · simp
      · simp

theorem tokens?_key (level : Nat) (key : List Symbol) {rest : List Char} {behind : List Token}
    (read : tokens? rest = some behind) :
    tokens? (newline level ++ (writeString key ++ ':' :: ' ' :: rest)) =
      some (.string (key.map Symbol.reread) :: .colon :: behind) := by
  have blank : tokens? ([' '] ++ rest) = some behind :=
    (tokens?_space (by simp [isSpace])).trans read
  have colon : tokens? (':' :: ' ' :: rest) = some (.colon :: behind) := tokens?_token rfl blank
  rw [tokens?_newline]
  exact tokens?_writeString key colon

theorem tokens?_indentedMembers {members : List (List Symbol × Json)}
    (legible : ∀ m ∈ members, m.2.Legible) (level : Nat) {rest : List Char} {behind : List Token}
    (closes : Closes rest) (read : tokens? rest = some behind) :
    tokens? (indentedMembers level members ++ rest) =
      some (memberTokens (rereadMembers members) ++ behind) := by
  induction members with
  | nil => exact read
  | cons m members ih =>
    obtain ⟨key, v⟩ := m
    have first : v.Legible := legible (key, v) List.mem_cons_self
    cases members with
    | nil =>
      have alone := tokens?_key level key (first level closes read)
      rw [indentedMembers, List.append_assoc, List.append_assoc]
      exact alone
    | cons m members =>
      have others := ih fun u hu => legible u (List.mem_cons_of_mem _ hu)
      have comma : tokens? (',' :: (indentedMembers level (m :: members) ++ rest)) =
          some (.comma :: (memberTokens (rereadMembers (m :: members)) ++ behind)) :=
        tokens?_token rfl others
      have all := tokens?_key level key (first level (closes_comma _) comma)
      rw [indentedMembers]
      · rw [rereadMembers, rereadMembers, memberTokens, ← rereadMembers]
        · simpa only [List.append_assoc, List.cons_append] using all
        · simp
      · simp

theorem legible {v : Json} (plain : v.Plain) : v.Legible := by
  induction plain with
  | null => exact fun _ _ _ _ read => tokens?_token rfl read
  | bool b => cases b <;> exact fun _ _ _ _ read => tokens?_token rfl read
  | number n => exact fun _ _ _ closes read => tokens?_token (firstToken?_numeral n closes) read
  | string symbols => exact fun _ _ _ _ read => tokens?_writeString symbols read
  | @array items _ ih =>
    intro level rest behind closes read
    cases items with
    | nil => exact tokens?_token rfl (tokens?_token rfl read)
    | cons v items =>
      have close : tokens? (newline level ++ ']' :: rest) = some (.closeArray :: behind) :=
        (tokens?_newline level _).trans (tokens?_token rfl read)
      have inner := tokens?_indentedItems ih (level + 1) (closes_newline level _) close
      rw [indented, reread, tokens]
      simp only [List.append_assoc, List.cons_append, List.nil_append]
      exact tokens?_token rfl inner
  | @object members _ ih =>
    intro level rest behind closes read
    cases members with
    | nil => exact tokens?_token rfl (tokens?_token rfl read)
    | cons m members =>
      have close : tokens? (newline level ++ '\x7d' :: rest) = some (.closeObject :: behind) :=
        (tokens?_newline level _).trans (tokens?_token rfl read)
      have inner := tokens?_indentedMembers ih (level + 1) (closes_newline level _) close
      rw [indented, reread, tokens]
      simp only [List.append_assoc, List.cons_append, List.nil_append]
      exact tokens?_token rfl inner

end StackUsage.Json

import StackUsage.CommandLine.Arguments

/-! Options that are given before everything else. What has been read so far bears on the reading of
an argument only in that most options are refused when they are given again. So an option in front
is kept beside whatever the arguments behind it come to, unless they give it again before the
command's name. -/

namespace StackUsage.CommandLine

namespace Scan

/-- The scan with one more option in front. -/
def after (given : String × String) (s : Scan) : Scan := { s with options := given :: s.options }

variable {given : String × String} {s : Scan} {long : String}

theorem has_after : (s.after given).has long = (decide (given.1 = long) || s.has long) := rfl

theorem has_eq_false_iff : s.has long = false ↔ s.value? long = none := by
  simp [has, value?]

theorem value?_after_of_ne (h : given.1 ≠ long) : (s.after given).value? long = s.value? long := by
  simp [after, value?, List.find?_append, h]

theorem value?_after_self (absent : s.has given.1 = false) :
    (s.after given).value? given.1 = some given.2 := by
  have none : s.options.reverse.find? (·.1 = given.1) = none := by
    simpa [has] using absent
  simp [after, value?, List.find?_append, none]

end Scan

/-! ### Reading on -/

/-- An option given before makes no difference to a reading that does not give it again. -/
def Passes {β : Type} (given : String × String) (read : Scan → Except Halt (Scan × β)) : Prop :=
  ∀ ⦃s s' : Scan⦄ ⦃b : β⦄, read s = .ok (s', b) → s'.has given.1 = false →
    s.has given.1 = false ∧ read (s.after given) = .ok (s'.after given, b)

section Passes

variable {β γ : Type} {given : String × String}

theorem passes_error (halt : Halt) : Passes (β := β) given fun _ => .error halt :=
  fun _ _ _ h => by cases h

theorem passes_ok (b : β) : Passes given fun s => .ok (s, b) := by
  intro s s' b' h absent
  cases h
  exact ⟨absent, rfl⟩

theorem Passes.bind {read : Scan → Except Halt (Scan × β)}
    {next : β → Scan → Except Halt (Scan × γ)} (h : Passes given read)
    (hn : ∀ b, Passes given (next b)) :
    Passes given fun s => (read s).bind fun (s, b) => next b s := by
  intro s s' c hr absent
  cases first : read s with
  | error halt =>
    simp only [first] at hr
    cases hr
  | ok result =>
    obtain ⟨s₁, b⟩ := result
    simp only [first] at hr
    obtain ⟨absent, then'⟩ := hn b hr absent
    obtain ⟨absent, first'⟩ := h first absent
    refine ⟨absent, ?_⟩
    simp only [first']
    exact then'

theorem Passes.next {read : Scan → Except Halt Scan} {next : Scan → Except Halt (Scan × γ)}
    (h : Passes given fun s => (read s).map (·, ())) (hn : Passes given next) :
    Passes given fun s => read s >>= next := by
  have same : (fun s => read s >>= next) =
      fun s => ((read s).map (·, ())).bind fun (s, _) => next s := by
    funext s
    cases read s <;> rfl
  rw [same]
  exact h.bind fun _ => hn

theorem passes_addOption (spec : OptionSpec) (value : String) (b : β) :
    Passes given fun s => (s.addOption spec value).map (·, b) := by
  intro s s' b' h absent
  simp only [Scan.addOption] at h ⊢
  split at h
  · cases h
  · next notHelp =>
    split at h
    · cases h
    · next notVersion =>
      split at h
      · cases h
      · next first =>
        split at h
        · next accepted =>
          cases h
          simp only [Scan.has, List.any_append, Bool.or_eq_false_iff, List.any_cons, List.any_nil,
            Bool.or_false, decide_eq_false_iff_not] at absent
          have again : (s.after given).has spec.long = s.has spec.long := by
            rw [Scan.has_after, decide_eq_false fun same => absent.2 same.symm, Bool.false_or]
          refine ⟨absent.1, ?_⟩
          rw [if_neg notHelp, if_neg notVersion, again, if_neg first, if_pos accepted]
          rfl
        · cases h

theorem passes_addPath (limit : Option Nat) (word : String) (b : β) :
    Passes given fun s => (s.addPath limit word).map (·, b) := by
  intro s s' b' h absent
  simp only [Scan.addPath] at h ⊢
  split at h
  · next fits =>
    cases h
    refine ⟨absent, ?_⟩
    change Except.map _ (if s.hasRoom limit && ValueKind.path.accepts word then _ else _) = _
    rw [if_pos fits]
    rfl
  · cases h

theorem passes_addPaths (limit : Option Nat) (words : List String) (b : β) :
    Passes given fun s => (words.foldlM (Scan.addPath limit) s).map (·, b) := by
  induction words with
  | nil => exact passes_ok b
  | cons word words ih =>
    have same : (fun s => ((word :: words).foldlM (Scan.addPath limit) s).map (·, b)) =
        fun s => s.addPath limit word >>= fun s =>
          (words.foldlM (Scan.addPath limit) s).map (·, b) := by
      funext s
      rw [List.foldlM_cons]
      cases s.addPath limit word <;> rfl
    rw [same]
    exact (passes_addPath limit word ()).next ih

/-- The value of the option is the next argument. -/
theorem passes_nextValue (spec : OptionSpec) (rest : List String) :
    Passes given fun s => do
      let (value, rest) ← nextValue rest
      return (← s.addOption spec value, rest) := by
  cases nextValue rest with
  | error halt => exact passes_error halt
  | ok found => exact (passes_addOption spec found.1 ()).next (passes_ok found.2)

theorem passes_scanLong (specs : List OptionSpec) (body : List Char) (rest : List String) :
    Passes given fun s => scanLong specs s body rest := by
  unfold scanLong
  dsimp only
  split
  · exact passes_error .misused
  · split
    · exact passes_addOption ..
    · exact passes_error .misused
  · split
    · exact passes_nextValue ..
    · exact passes_addOption ..

theorem passes_scanShort (specs : List OptionSpec) (rest : List String) (letters : List Char) :
    Passes given fun s => scanShort specs s rest letters := by
  induction letters with
  | nil => exact passes_ok rest
  | cons letter letters ih =>
    unfold scanShort
    split
    · exact passes_error .misused
    · next spec _ =>
      split
      · split
        · exact passes_nextValue ..
        · exact passes_addOption ..
        · exact passes_addOption ..
      · exact (passes_addOption spec "" ()).next ih

theorem passes_scanWithin (g : Grammar) (count : Nat) (args : List String) :
    Passes given fun s => scanWithin g count s args := by
  induction count generalizing args with
  | zero => exact passes_ok args
  | succ count ih =>
    cases args with
    | nil => exact passes_ok []
    | cons arg rest =>
      unfold scanWithin
      split
      · exact passes_error .misused
      · exact passes_addPaths ..
      · exact (passes_scanLong ..).bind ih
      · exact (passes_scanShort ..).bind ih
      · intro s s' b h absent
        cases h
        exact ⟨absent, rfl⟩
      · exact (passes_addPath ..).next (ih rest)

end Passes

/-! ### The source extensions -/

/-- The invocation with its option for source extensions set or taken away. -/
def Invocation.withSources (i : Invocation) (list : Option String) : Invocation :=
  { i with overrides := { i.overrides with sourceExtensions := list } }

/-- An argument with two dashes and more is a long option. -/
theorem scan_long {g : Grammar} {arg : String} {c : Char} {body : List Char}
    (spelled : arg.toList = '-' :: '-' :: c :: body) (args : List String) :
    scan g (arg :: args) = (scanLong g.options .empty (c :: body) args).bind fun (s, rest) =>
      scanWithin g args.length s rest := by
  rw [scan, List.length_cons, scanWithin]
  simp only [spelled]
  rfl

theorem find?_sourceExtensions : topGrammar.options.find? (·.long = "source-ext") =
    some (setting "source-ext" .text) := by decide

theorem scan_sourceExtensions (list : String) (args : List String) :
    scan topGrammar (("--source-ext=" ++ list) :: args) =
      scanWithin topGrammar args.length (Scan.empty.after ("source-ext", list)) args := by
  have spelled : ("--source-ext=" ++ list).toList =
      '-' :: '-' :: ("source-ext".toList ++ '=' :: list.toList) := by simp
  have plain : "source-ext".toList.all (· ≠ '=') = true := rfl
  have name : ("source-ext".toList ++ '=' :: list.toList).takeWhile (· ≠ '=') =
      "source-ext".toList := by
    rw [List.takeWhile_append_of_pos (List.all_eq_true.1 plain)]
    simp
  have value : ("source-ext".toList ++ '=' :: list.toList).dropWhile (· ≠ '=') =
      '=' :: list.toList := by
    rw [List.dropWhile_append_of_pos (List.all_eq_true.1 plain)]
    simp
  have read : scanLong topGrammar.options .empty ("source-ext".toList ++ '=' :: list.toList) args =
      .ok (Scan.empty.after ("source-ext", list), args) := by
    simp only [scanLong, name, value, String.ofList_toList, find?_sourceExtensions]
    rfl
  rw [scan_long spelled]
  exact congrArg (Except.bind · _) read

theorem overrides_after {top command : Scan} (behind : command.value? "source-ext" = none)
    (absent : top.has "source-ext" = false) (list : String) :
    overrides (top.after ("source-ext", list)) command =
      { overrides top command with sourceExtensions := some list } := by
  have manifest : (top.after ("source-ext", list)).value? "manifest-name" =
      top.value? "manifest-name" :=
    Scan.value?_after_of_ne (show "source-ext" ≠ "manifest-name" by decide)
  have report : (top.after ("source-ext", list)).value? "report-ext" = top.value? "report-ext" :=
    Scan.value?_after_of_ne (show "source-ext" ≠ "report-ext" by decide)
  have source : (top.after ("source-ext", list)).value? "source-ext" = some list :=
    Scan.value?_after_self absent
  simp only [overrides, manifest, report, source, behind, Option.none_or]

/-- An option for source extensions in front of arguments without one comes to what they come to,
with that option. -/
theorem parse_sourceExtensions {args : List String} {invocation : Invocation}
    (h : parse args = .ok (invocation.withSources none)) (list : String) :
    parse (("--source-ext=" ++ list) :: args) = .ok (invocation.withSources (some list)) := by
  rw [parse, scan_sourceExtensions]
  rw [parse] at h
  dsimp only [bind, Except.bind] at h ⊢
  split at h
  · cases h
  · next _ read first =>
    obtain ⟨top, rest⟩ := read
    split at h
    · next name one =>
      split at h
      · next grammar known =>
        split at h
        · cases h
        · next _ behind second =>
          split at h
          · cases h
          · next _ action done =>
            have same := Except.ok.inj h
            -- neither level has the option
            have none : (behind.1.value? "source-ext").or (top.value? "source-ext") = none :=
              congrArg (fun i => i.overrides.sourceExtensions) same
            rw [Option.or_eq_none_iff] at none
            have absent := Scan.has_eq_false_iff.2 none.2
            have first' : scanWithin topGrammar args.length
                (Scan.empty.after ("source-ext", list)) args =
                  .ok (top.after ("source-ext", list), rest) :=
              (passes_scanWithin topGrammar args.length args first absent).2
            have one' : (top.after ("source-ext", list)).words = [name] := one
            simp only [first', one', known, second, done, overrides_after none.1 absent list]
            exact congrArg (fun i => Except.ok (i.withSources (some list))) same
      · cases h
    · cases h

/-- A list that looks like an option has to stand behind an equals sign. -/
theorem parse_sourceExtensions_next {arg : String} (h : looksLikeOption arg = true)
    (args : List String) : parse ("--source-ext" :: arg :: args) = .error .misused := by
  have spelled : "--source-ext".toList = '-' :: '-' :: "source-ext".toList := rfl
  have name : "source-ext".toList.takeWhile (· ≠ '=') = "source-ext".toList := by decide
  have value : "source-ext".toList.dropWhile (· ≠ '=') = [] := by decide
  have read : scanLong topGrammar.options .empty "source-ext".toList (arg :: args) =
      .error .misused := by
    simp only [scanLong, name, value, String.ofList_toList, find?_sourceExtensions, nextValue, h]
    rfl
  have refused : scan topGrammar ("--source-ext" :: arg :: args) = .error .misused :=
    (scan_long spelled _).trans (congrArg (Except.bind · _) read)
  rw [parse, refused]
  rfl

end StackUsage.CommandLine

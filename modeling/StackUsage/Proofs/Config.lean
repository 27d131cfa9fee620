import Mathlib.Data.List.DropRight
import Mathlib.Logic.Function.Basic
import StackUsage.CommandLine
import StackUsage.Proofs.CommandLine.Options
import StackUsage.Proofs.Text

/-! What a list of source extensions holds. Each extension is some text without commas that starts
with no dot and ends with no blank. It starts with no blank either, unless its entry has a blank
behind its first dots: blanks are trimmed before dots are dropped, and not again. Lists without such
entries are read back from what is printed of them, so that settings which print no stray blank can
be given again, as the option or as the variable. On the command line the option is given with an
equals sign, since a list that looks like an option is refused as an argument of its own. -/

namespace StackUsage

namespace Config

/-! ### Entries -/

/-- What an entry of a list of extensions stands for: nothing, or an extension. -/
def extensionOf (entry : List Char) : List Char := dropDots (Text.trim entry)

/-- An extension as a list holds it: some text without commas that starts with no dot and ends with
no blank. -/
structure IsListed (e : List Char) : Prop where
  ne_nil : e ≠ []
  comma : ',' ∉ e
  dot : ∀ c ∈ e.head?, c ≠ '.'
  last : ∀ c ∈ e.getLast?, Text.isBlank c = false

/-- The entry starts, up to blanks, with dots that have a blank behind them and then more. -/
def HasSpacedDots (entry : List Char) : Prop :=
  ∃ before dots c rest, entry = before ++ (dots ++ c :: rest) ∧
    (∀ b ∈ before, Text.isBlank b = true) ∧ dots ≠ [] ∧ (∀ d ∈ dots, d = '.') ∧
    Text.isBlank c = true ∧ ∃ x ∈ rest, Text.isBlank x = false

theorem extensionList_eq (s : String) : extensionList s =
    (((s.toList.splitOn ',').map extensionOf).filter (· ≠ [])).map String.ofList := rfl

theorem mem_extensionList {s e : String} :
    e ∈ extensionList s ↔
      ∃ entry ∈ s.toList.splitOn ',', extensionOf entry = e.toList ∧ e.toList ≠ [] := by
  simp only [extensionList_eq, List.mem_map, List.mem_filter, decide_eq_true_eq]
  constructor
  · rintro ⟨_, ⟨⟨entry, there, rfl⟩, ne⟩, rfl⟩
    exact ⟨entry, there, by simp, by simpa using ne⟩
  · rintro ⟨entry, there, same, ne⟩
    exact ⟨e.toList, ⟨⟨entry, there, same⟩, by simpa using ne⟩, by simp⟩

/-- Trimming leaves blanks around the rest, and dots in front of the extension. -/
theorem extensionOf_split (entry : List Char) :
    ∃ before dots after, entry = before ++ (dots ++ extensionOf entry) ++ after ∧
      (∀ b ∈ before, Text.isBlank b = true) ∧ (∀ d ∈ dots, d = '.') ∧
      Text.Tight (dots ++ extensionOf entry) := by
  obtain ⟨tight, before, after, split, blank, -⟩ := Text.trims_trim entry
  have cut : Text.trim entry = (Text.trim entry).takeWhile (· = '.') ++ extensionOf entry :=
    List.takeWhile_append_dropWhile.symm
  rw [cut] at tight split
  refine ⟨before, _, after, split, blank, fun d hd => ?_, tight⟩
  simpa using List.mem_takeWhile_imp hd

theorem isListed_extensionOf {entry : List Char} (comma : ',' ∉ entry)
    (ne : extensionOf entry ≠ []) : IsListed (extensionOf entry) where
  ne_nil := ne
  comma h := by
    obtain ⟨before, dots, after, split, -⟩ := extensionOf_split entry
    exact comma (by rw [split]; simp [h])
  dot c hc := by
    have := List.head?_dropWhile_not (· = '.') (Text.trim entry)
    rw [extensionOf, dropDots] at hc
    simp_all
  last c hc := by
    obtain ⟨before, dots, after, -, -, -, tight⟩ := extensionOf_split entry
    exact tight.last c (by rwa [List.getLast?_append_of_ne_nil _ ne])

theorem isListed_of_mem {s e : String} (h : e ∈ extensionList s) : IsListed e.toList := by
  obtain ⟨entry, there, same, ne⟩ := mem_extensionList.1 h
  rw [← same] at ne ⊢
  exact isListed_extensionOf (Text.not_mem_of_mem_splitOn there) ne

/-- An extension of a list stands for itself unless it starts with a blank. -/
theorem extensionOf_eq_self {e : List Char} (listed : IsListed e) :
    extensionOf e = e ↔ Text.Tight e := by
  constructor
  · intro same
    obtain ⟨before, dots, after, split, -, -, tight⟩ := extensionOf_split e
    have none : dots = [] := by
      have lengths := congrArg List.length split
      simp only [same, List.length_append] at lengths
      exact List.length_eq_zero_iff.1 (by omega)
    rwa [none, same] at tight
  · intro tight
    obtain ⟨c, rest, rfl⟩ := List.exists_cons_of_ne_nil listed.ne_nil
    rw [extensionOf, tight.trim_eq, dropDots, List.dropWhile_cons_of_neg]
    simpa using listed.dot c rfl

/-- Behind spaced dots, the extension starts with the blank. -/
theorem not_tight_of_hasSpacedDots {entry : List Char} (spaced : HasSpacedDots entry) :
    ¬ Text.Tight (extensionOf entry) := by
  obtain ⟨before, dots, c, rest, rfl, start, some, dot, blank, x, more, visible⟩ := spaced
  have kept : rest.rdropWhile Text.isBlank ≠ [] := fun none => by
    have all := List.rdropWhile_eq_nil_iff.1 none x more
    simp [visible] at all
  have plain : c ≠ '.' := by
    rintro rfl
    exact absurd blank (by decide)
  have trimmed : Text.trim (before ++ (dots ++ c :: rest)) =
      dots ++ c :: rest.rdropWhile Text.isBlank := by
    refine Text.trim_eq_iff.2 ⟨⟨fun d hd => ?_, fun d hd => ?_⟩, before,
      rest.rtakeWhile Text.isBlank, ?_, start, fun b hb => List.mem_rtakeWhile_imp hb⟩
    · rw [List.head?_append_of_ne_nil _ some] at hd
      rw [dot d (List.mem_of_mem_head? hd)]
      decide
    · rw [List.getLast?_append_of_ne_nil _ (List.cons_ne_nil _ _),
        List.getLast?_cons_of_ne_nil kept, List.getLast?_eq_some_getLast kept] at hd
      cases hd
      simpa using List.rdropWhile_last_not Text.isBlank rest kept
    · simp [List.rdropWhile_append_rtakeWhile]
  intro tight
  rw [extensionOf, trimmed, dropDots, List.dropWhile_append_of_pos (by simpa using dot),
    List.dropWhile_cons_of_neg (by simpa using plain)] at tight
  exact Bool.false_ne_true ((tight.first c rfl).symm.trans blank)

theorem tight_extensionOf {entry : List Char} :
    Text.Tight (extensionOf entry) ↔ ¬ HasSpacedDots entry := by
  refine ⟨fun tight spaced => not_tight_of_hasSpacedDots spaced tight, fun unspaced => ?_⟩
  obtain ⟨before, dots, after, split, start, dot, tight⟩ := extensionOf_split entry
  generalize extensionOf entry = e at split tight ⊢
  by_cases ne : e = []
  · subst ne
    exact Text.tight_of_forall (by simp)
  have last : ∀ x ∈ e.getLast?, Text.isBlank x = false := fun x hx =>
    tight.last x (by rwa [List.getLast?_append_of_ne_nil _ ne])
  refine ⟨fun c hc => ?_, last⟩
  by_contra blank
  obtain ⟨rest, rfl⟩ := List.head?_eq_some_iff.1 hc
  have blank : Text.isBlank c = true := by simpa using blank
  refine unspaced ⟨before, dots, c, rest ++ after, by simp [split], start, ?_, dot, blank, ?_⟩
  · rintro rfl
    exact Bool.false_ne_true ((tight.first c rfl).symm.trans blank)
  · have longer : rest ≠ [] := by
      rintro rfl
      exact Bool.false_ne_true ((last c rfl).symm.trans blank)
    refine ⟨rest.getLast longer, by simp, last _ ?_⟩
    rw [List.getLast?_cons_of_ne_nil longer, List.getLast?_eq_some_getLast longer]
    rfl

/-! ### Lists -/

/-- All extensions of the list are free of blanks at either end just if no entry has spaced dots. -/
theorem forall_tight_iff {s : String} :
    (∀ e ∈ extensionList s, Text.Tight e.toList) ↔ ∀ entry ∈ s.toList.splitOn ',',
      ¬ HasSpacedDots entry := by
  constructor
  · intro tight entry there
    rw [← tight_extensionOf]
    by_cases ne : extensionOf entry = []
    · rw [ne]
      exact Text.tight_of_forall (by simp)
    · have listed : String.ofList (extensionOf entry) ∈ extensionList s :=
        mem_extensionList.2 ⟨entry, there, by simp, by simpa using ne⟩
      simpa using tight _ listed
  · intro unspaced e he
    obtain ⟨entry, there, same, -⟩ := mem_extensionList.1 he
    rw [← same, tight_extensionOf]
    exact unspaced entry there

/-- A list of extensions as it is printed: with commas between them. -/
def listing (l : List String) : String := ",".intercalate l

theorem extensionList_listing {l : List String} (plain : ∀ e ∈ l, ',' ∉ e.toList) :
    extensionList (listing l) =
      ((l.map fun e => extensionOf e.toList).filter (· ≠ [])).map String.ofList := by
  by_cases empty : l = []
  · rw [empty]
    decide
  · rw [extensionList_eq, listing, String.toList_intercalate]
    have split : ([','].intercalate (l.map String.toList)).splitOn ',' = l.map String.toList :=
      List.splitOn_intercalate ',' (List.forall_mem_map.2 plain) (by simpa using empty)
    rw [show ",".toList = [','] from rfl, split, List.map_map]
    rfl

/-- Reading back what is printed of a list gives the list just if no extension has a blank at
either end. -/
theorem extensionList_listing_eq_self {l : List String} (listed : ∀ e ∈ l, IsListed e.toList) :
    extensionList (listing l) = l ↔ ∀ e ∈ l, Text.Tight e.toList := by
  rw [extensionList_listing fun e he => (listed e he).comma]
  constructor
  · intro same e he
    -- the list is as long as it was, so no extension was left out
    have lengths := congrArg List.length same
    rw [List.length_map, ← List.length_map fun e : String => extensionOf e.toList,
      List.length_filter_eq_length_iff, ← List.filter_eq_self] at lengths
    rw [lengths, List.map_map] at same
    have self : String.ofList (extensionOf e.toList) = e :=
      List.map_inj_left.1 (same.trans l.map_id.symm) e he
    rw [← extensionOf_eq_self (listed e he), ← String.ofList_inj, self, String.ofList_toList]
  · intro tight
    have self : (l.map fun e => extensionOf e.toList) = l.map String.toList :=
      List.map_congr_left fun e he => (extensionOf_eq_self (listed e he)).2 (tight e he)
    have whole : (l.map String.toList).filter (· ≠ []) = l.map String.toList :=
      List.filter_eq_self.2 (List.forall_mem_map.2 fun e he => by simpa using (listed e he).ne_nil)
    rw [self, whole, List.map_map]
    simp

theorem tight_listing {l : List String} (listed : ∀ e ∈ l, IsListed e.toList)
    (tight : ∀ e ∈ l, Text.Tight e.toList) (ne : l ≠ []) :
    (listing l).toList ≠ [] ∧ Text.Tight (listing l).toList := by
  induction l with
  | nil => exact absurd rfl ne
  | cons e l ih =>
    obtain ⟨firstTight, tight⟩ := List.forall_mem_cons.1 tight
    obtain ⟨firstListed, listed⟩ := List.forall_mem_cons.1 listed
    by_cases alone : l = []
    · rw [alone, listing, String.intercalate_singleton]
      exact ⟨firstListed.ne_nil, firstTight⟩
    · obtain ⟨more, tightRest⟩ := ih listed tight alone
      rw [listing, String.intercalate_cons_of_ne_nil alone, String.toList_append,
        String.toList_append]
      exact ⟨by simp [firstListed.ne_nil], firstTight.append tightRest firstListed.ne_nil more _⟩

/-! ### Settings -/

/-- There are source extensions, and they are such as a list holds. -/
structure HasExtensions (c : Config) : Prop where
  ne_nil : c.sourceExtensions ≠ []
  listed : ∀ e ∈ c.sourceExtensions, IsListed e.toList

theorem hasExtensions_default : HasExtensions .default := by
  have read : default.sourceExtensions = extensionList "c,cc,cpp,cxx,c++,h,hh,hpp,hxx" := by
    decide +kernel
  exact ⟨List.cons_ne_nil _ _, fun e he => isListed_of_mem (read ▸ he)⟩

/-- A list without an entry overrides nothing. -/
theorem sourceExtensions_override_of_none {c : Config} {o : Overrides}
    (none : ∀ s, o.sourceExtensions = some s → extensionList s = []) :
    (c.override o).sourceExtensions = c.sourceExtensions := by
  rcases o with ⟨_, _, _ | s⟩
  · rfl
  · simp only [Config.override, Option.map_some, none s rfl]

theorem sourceExtensions_override_of_some {c : Config} {o : Overrides} {s : String}
    (given : o.sourceExtensions = some s) (some : extensionList s ≠ []) :
    (c.override o).sourceExtensions = extensionList s := by
  obtain ⟨e, l, read⟩ := List.exists_cons_of_ne_nil some
  simp only [Config.override, given, Option.map_some, read]

theorem HasExtensions.override {c : Config} (h : c.HasExtensions) (o : Overrides) :
    (c.override o).HasExtensions := by
  by_cases none : ∀ s, o.sourceExtensions = some s → extensionList s = []
  · have same := sourceExtensions_override_of_none (c := c) none
    exact ⟨same ▸ h.ne_nil, same ▸ h.listed⟩
  · obtain ⟨s, none⟩ := not_forall.1 none
    obtain ⟨given, some⟩ := Classical.not_imp.1 none
    have read := sourceExtensions_override_of_some (c := c) given some
    exact ⟨read ▸ some, fun e he => isListed_of_mem (read ▸ he)⟩

/-- An override by what is printed of the extensions gives these extensions again. -/
theorem sourceExtensions_override_listing {b c : Config} {o : Overrides} (h : c.HasExtensions)
    (tight : ∀ e ∈ c.sourceExtensions, Text.Tight e.toList)
    (given : o.sourceExtensions = some (listing c.sourceExtensions)) :
    (b.override o).sourceExtensions = c.sourceExtensions := by
  have read := (extensionList_listing_eq_self h.listed).2 tight
  have some : extensionList (listing c.sourceExtensions) ≠ [] := by
    rw [read]
    exact h.ne_nil
  rw [sourceExtensions_override_of_some given some, read]

/-- A value that is not blank at either end counts as it is. -/
theorem trimmed?_of_tight {s : String} (ne : s.toList ≠ []) (tight : Text.Tight s.toList) :
    trimmed? (some s) = some s := by
  obtain ⟨c, rest, spelled⟩ := List.exists_cons_of_ne_nil ne
  simp only [trimmed?, Option.map_some, tight.trim_eq]
  rw [spelled]
  simp only [← spelled, String.ofList_toList]

end Config

namespace CommandLine

open Config

variable (environment : String → Option String) (invocation : Invocation)

/-- The environment with another value of its variable for source extensions. -/
def withSourceVariable (list : String) : String → Option String :=
  Function.update environment "STACKSCOPE_SOURCE_EXTENSIONS" (some list)

theorem hasExtensions_settings : (settings environment invocation).HasExtensions :=
  (hasExtensions_default.override _).override _

theorem ofEnvironment_withSourceVariable (list : String) :
    Overrides.ofEnvironment (withSourceVariable environment list) =
      { Overrides.ofEnvironment environment with sourceExtensions := trimmed? (some list) } := by
  simp [Overrides.ofEnvironment, withSourceVariable]

variable {environment invocation}

/-- The printed list as the option gives the same settings. -/
theorem settings_withSources (tight : ∀ e ∈ (settings environment invocation).sourceExtensions,
      Text.Tight e.toList) :
    settings environment (invocation.withSources
        (some (listing (settings environment invocation).sourceExtensions))) =
      settings environment invocation := by
  have same := sourceExtensions_override_listing (b := ofEnvironment environment)
    (o := (invocation.withSources
        (some (listing (settings environment invocation).sourceExtensions))).overrides)
    (hasExtensions_settings environment invocation) tight rfl
  exact congrArg
    (fun list => { settings environment invocation with sourceExtensions := list }) same

/-- The printed list as the variable, without the option, gives the same settings. -/
theorem settings_withSourceVariable
    (tight : ∀ e ∈ (settings environment invocation).sourceExtensions, Text.Tight e.toList) :
    settings (withSourceVariable environment
        (listing (settings environment invocation).sourceExtensions))
        (invocation.withSources none) =
      settings environment invocation := by
  have has := hasExtensions_settings environment invocation
  obtain ⟨ne, ends⟩ := tight_listing has.listed tight has.ne_nil
  have same := sourceExtensions_override_listing (b := .default)
    (o := Overrides.ofEnvironment (withSourceVariable environment
      (listing (settings environment invocation).sourceExtensions))) has tight
    (by rw [ofEnvironment_withSourceVariable, trimmed?_of_tight ne ends])
  rw [settings, ofEnvironment, ofEnvironment_withSourceVariable]
  rw [ofEnvironment_withSourceVariable] at same
  exact congrArg
    (fun list => { settings environment invocation with sourceExtensions := list }) same

/-- The settings as text have the listing of the source extensions on a line of its own. -/
theorem configText_listing (c : Config) : ∃ before after,
    configText false c =
      before ++ "\nsource_extensions: " ++ listing c.sourceExtensions ++ "\n" ++ after := by
  refine ⟨"manifest_file_name: " ++ c.manifestName ++ "\nreport_extension: " ++ c.reportExtension,
    "event_buffer: " ++ toString c.eventBuffer.toNat ++
      "\nnotify_poll_interval_ms: " ++ toString c.pollInterval.milliseconds, ?_⟩
  simp only [configText, Bool.false_eq_true, if_false, joinLines, String.intercalate_cons_cons,
    String.intercalate_singleton, listing, ← String.toList_inj, String.toList_append]
  simp

/-- An extension list is in normal form unless an entry has a blank behind its first dots. Each
extension read is not empty, has no comma, starts with no dot and ends with no blank. All of them
are free of blanks at their start as well, and the list is read back from its printed form, just if
no entry has spaced dots. Settings whose extensions have no blank at either end are reproduced by
what is printed of the extensions, given as the option or as the variable, and every list can be
given as the option, in front of arguments that do not have it. -/
theorem extensions_normal_unless_spaced (s : String) (environment : String → Option String)
    (invocation : Invocation) :
    (∀ e ∈ extensionList s, IsListed e.toList) ∧
    ((∀ e ∈ extensionList s, Text.Tight e.toList) ↔
      ∀ entry ∈ s.toList.splitOn ',', ¬ HasSpacedDots entry) ∧
    (extensionList (listing (extensionList s)) = extensionList s ↔
      ∀ entry ∈ s.toList.splitOn ',', ¬ HasSpacedDots entry) ∧
    (∃ before after, configText false (settings environment invocation) =
      before ++ "\nsource_extensions: " ++
        listing (settings environment invocation).sourceExtensions ++ "\n" ++ after) ∧
    ((∀ e ∈ (settings environment invocation).sourceExtensions, Text.Tight e.toList) →
      settings environment (invocation.withSources
          (some (listing (settings environment invocation).sourceExtensions))) =
        settings environment invocation ∧
      settings (withSourceVariable environment
            (listing (settings environment invocation).sourceExtensions))
          (invocation.withSources none) =
        settings environment invocation) ∧
    ∀ args list, parse args = .ok (invocation.withSources none) →
      parse (("--source-ext=" ++ list) :: args) = .ok (invocation.withSources (some list)) := by
  have listed : ∀ e ∈ extensionList s, IsListed e.toList := fun _ => isListed_of_mem
  exact ⟨listed, forall_tight_iff, (extensionList_listing_eq_self listed).trans forall_tight_iff,
    configText_listing _,
    fun tight => ⟨settings_withSources tight, settings_withSourceVariable tight⟩,
    fun _ list parsed => parse_sourceExtensions parsed list⟩

/-! ### Dots with a blank behind them -/

/-- An invocation that overrides nothing. -/
def bareInvocation : Invocation := ⟨.config, false, ⟨none, none, none⟩⟩

/-- An environment that has only the variable for source extensions. -/
def onlySources (list : String) : String → Option String := withSourceVariable (fun _ => none) list

theorem extensions_normal_unless_spaced_untidy :
    (settings (onlySources ".c, cpp,, .h ") bareInvocation).sourceExtensions = ["c", "cpp", "h"] ∧
      (∀ e ∈ ["c", "cpp", "h"], Text.Tight e.toList) ∧
      settings (onlySources "c,cpp,h") bareInvocation =
        settings (onlySources ".c, cpp,, .h ") bareInvocation ∧
      settings (onlySources ".c, cpp,, .h ") (bareInvocation.withSources (some "c,cpp,h")) =
        settings (onlySources ".c, cpp,, .h ") bareInvocation ∧
      parse ["config"] = .ok bareInvocation ∧
      parse ["--source-ext=c,cpp,h", "config"] =
        .ok (bareInvocation.withSources (some "c,cpp,h")) := by
  have read : (settings (onlySources ".c, cpp,, .h ") bareInvocation).sourceExtensions =
      ["c", "cpp", "h"] := by
    decide +kernel
  have plain : ["c", "cpp", "h"].all (fun e => e.toList.all (!Text.isBlank ·)) = true := rfl
  have tight : ∀ e ∈ ["c", "cpp", "h"], Text.Tight e.toList := fun e he =>
    Text.tight_of_forall (by simpa using List.all_eq_true.1 plain e he)
  have printed : listing ["c", "cpp", "h"] = "c,cpp,h" := rfl
  have law := extensions_normal_unless_spaced ".c, cpp,, .h " (onlySources ".c, cpp,, .h ")
    bareInvocation
  rw [read, printed] at law
  obtain ⟨-, -, -, -, again, parsed⟩ := law
  obtain ⟨byOption, byVariable⟩ := again tight
  have bare : parse ["config"] = .ok bareInvocation := by decide +kernel
  refine ⟨read, tight, ?_, byOption, bare, parsed ["config"] "c,cpp,h" bare⟩
  have cleared : withSourceVariable (onlySources ".c, cpp,, .h ") "c,cpp,h" =
      onlySources "c,cpp,h" := Function.update_idem ..
  rw [← cleared]
  exact byVariable

/-- A blank behind the dots of an entry stays, and is lost when the printed list is read. -/
theorem spaced_dots_stray :
    extensionList ". c" = [" c"] ∧ ¬ Text.Tight " c".toList ∧
      extensionList (listing (extensionList ". c")) = ["c"] ∧
      settings
          (onlySources (listing (settings (onlySources ". c") bareInvocation).sourceExtensions))
          bareInvocation ≠
        settings (onlySources ". c") bareInvocation := by
  refine ⟨by decide +kernel, fun tight => ?_, by decide +kernel, by decide +kernel⟩
  exact absurd (tight.first ' ' rfl) (by decide)

end CommandLine

end StackUsage

import StackUsage.CommandLine.Options
import StackUsage.Config

/-! What a command line asks for. Five commands share options that override the settings; these
may stand before or behind the command's name, and behind it they count. -/

namespace StackUsage.CommandLine

/-- A command and its arguments. -/
inductive Action
  | watch (roots shown : List Path) (timeout : Option UInt64)
  | annotate (root file : Path)
  | report (file : Path) (baseDir : Option Path)
  | manifest (root : Path)
  | config
  deriving DecidableEq, Repr

structure Invocation where
  action : Action
  json : Bool
  overrides : Config.Overrides
  deriving DecidableEq, Repr

/-! ### What the commands understand -/

def flag (long : String) (short : Option Char) : OptionSpec := ⟨long, short, none, false⟩

def setting (long : String) (kind : ValueKind) : OptionSpec := ⟨long, none, some kind, false⟩

def sharedOptions : List OptionSpec :=
  [flag "verbose" (some 'v'), flag "quiet" none, setting "manifest-name" .text,
    setting "report-ext" .text, setting "source-ext" .text, flag "help" (some 'h')]

/-- What stands before the command's name. -/
def topGrammar : Grammar := ⟨sharedOptions ++ [flag "version" (some 'V')], .commandName⟩

/-- A command's own options beside the shared ones and the flag for JSON, and its paths. -/
def command (options : List OptionSpec) (limit : Option Nat) : Grammar :=
  ⟨sharedOptions ++ flag "json" none :: options, .paths limit⟩

/-- The grammar of each command there is. -/
def commandGrammar? : String → Option Grammar
  | "watch" =>
    some (command [⟨"show", some 's', some .path, true⟩, setting "timeout-secs" .seconds] none)
  | "annotate" => some (command [] (some 2))
  | "report" => some (command [setting "base-dir" .path] (some 1))
  | "manifest" => some (command [] (some 1))
  | "config" => some (command [] (some 0))
  | _ => none

/-! ### Commands -/

def currentDirectory : Path := ⟨"."⟩

/-- The action of a command whose arguments have been read; only a word too few is wrong now. -/
def action (name : String) (s : Scan) : Except Halt Action :=
  match name, s.words.map Path.mk with
  | "watch", roots =>
    .ok (.watch (if roots.isEmpty then [currentDirectory] else roots)
      ((s.values "show").map Path.mk)
      ((s.value? "timeout-secs").bind fun seconds => Text.readUInt64? seconds.toList))
  | "annotate", [root, file] => .ok (.annotate root file)
  | "report", [file] => .ok (.report file ((s.value? "base-dir").map Path.mk))
  | "manifest", [] => .ok (.manifest currentDirectory)
  | "manifest", [root] => .ok (.manifest root)
  | "config", [] => .ok .config
  | _, _ => .error .misused

/-- The overrides of both levels; those behind the command's name win. -/
def overrides (top command : Scan) : Config.Overrides :=
  let value? (long : String) : Option String := (command.value? long).or (top.value? long)
  ⟨value? "manifest-name", value? "report-ext", value? "source-ext"⟩

/-- What stands behind `help`: nothing, or one word that has a help text. -/
def isHelpTopic : List String → Bool
  | [] => true
  | [name] => name = "help" || (commandGrammar? name).isSome
  | _ => false

def parse (args : List String) : Except Halt Invocation := do
  let (top, rest) ← scan topGrammar args
  match top.words with
  | [name] =>
    match commandGrammar? name with
    | some grammar =>
      let (command, _) ← scan grammar rest
      return ⟨← action name command, command.has "json", overrides top command⟩
    | none => .error (if name = "help" && isHelpTopic rest then .helpWanted else .misused)
  | _ => .error .misused

end StackUsage.CommandLine

import StackUsage.Text.Numeral

/-! Splitting a command line into options and words. A long option may carry its value behind an
equals sign, a short one directly behind its letter, and short flags may share one dash; otherwise
the value is the next argument, which must not look like an option itself. Two dashes make words of
all that follows.

Arguments are judged one by one, so a wrong one before a request for help is misuse, and one behind
it is never looked at. -/

namespace StackUsage.CommandLine

/-- What a value has to be. -/
inductive ValueKind
  | text
  | path
  | seconds
  deriving DecidableEq, Repr

/-- Any text is a text, a path is not empty, and seconds are a count of 64 bits. -/
def ValueKind.accepts : ValueKind → String → Bool
  | .text, _ => true
  | .path, s => s ≠ ""
  | .seconds, s => (Text.readUInt64? s.toList).isSome

/-- An option that a command understands; its long name is its identity. One without a kind of
value is a flag. -/
structure OptionSpec where
  long : String
  short : Option Char
  value : Option ValueKind
  repeatable : Bool
  deriving DecidableEq, Repr

/-- Which words a command takes: the name of another command, which takes all that follows, or
paths, up to a number of them if there is one. -/
inductive WordRule
  | commandName
  | paths (limit : Option Nat)
  deriving DecidableEq, Repr

/-- What a command understands. -/
structure Grammar where
  options : List OptionSpec
  words : WordRule
  deriving DecidableEq, Repr

/-- Why reading arguments stops early. -/
inductive Halt
  | misused
  | helpWanted
  | versionWanted
  deriving DecidableEq, Repr

/-- What has been read so far: options with their values in order, and words. -/
structure Scan where
  options : List (String × String)
  words : List String
  deriving DecidableEq, Repr

namespace Scan

def empty : Scan := ⟨[], []⟩

def has (s : Scan) (long : String) : Bool := s.options.any (·.1 = long)

/-- The value given last under a name. -/
def value? (s : Scan) (long : String) : Option String :=
  (s.options.reverse.find? (·.1 = long)).map (·.2)

def values (s : Scan) (long : String) : List String :=
  (s.options.filter (·.1 = long)).map (·.2)

/-- Whether one more path fits under the limit. -/
def hasRoom (s : Scan) (limit : Option Nat) : Bool := limit.all fun most => s.words.length < most

def addPath (limit : Option Nat) (s : Scan) (word : String) : Except Halt Scan :=
  if s.hasRoom limit && ValueKind.path.accepts word then .ok { s with words := s.words ++ [word] }
  else .error .misused

/-- Adds an option; most may be given only once. Asking for help or the version ends the reading. -/
def addOption (s : Scan) (spec : OptionSpec) (value : String) : Except Halt Scan :=
  if spec.long = "help" then .error .helpWanted
  else if spec.long = "version" then .error .versionWanted
  else if s.has spec.long && !spec.repeatable then .error .misused
  else if spec.value.all (·.accepts value) then
    .ok { s with options := s.options ++ [(spec.long, value)] }
  else .error .misused

end Scan

/-- Whether an argument would be read as an option or as the end of options. -/
def looksLikeOption (arg : String) : Bool :=
  match arg.toList with
  | '-' :: _ :: _ => true
  | _ => false

/-- The value of an option from the argument behind it. -/
def nextValue : List String → Except Halt (String × List String)
  | [] => .error .misused
  | arg :: rest => if looksLikeOption arg then .error .misused else .ok (arg, rest)

/-- Reads a long option without its dashes. -/
def scanLong (specs : List OptionSpec) (s : Scan) (body : List Char) (rest : List String) :
    Except Halt (Scan × List String) :=
  let name := String.ofList (body.takeWhile (· ≠ '='))
  match specs.find? (·.long = name), body.dropWhile (· ≠ '=') with
  | none, _ => .error .misused
  | some spec, '=' :: value =>
    if spec.value.isSome then (s.addOption spec (String.ofList value)).map (·, rest)
    else .error .misused
  | some spec, _ =>
    if spec.value.isSome then do
      let (value, rest) ← nextValue rest
      return (← s.addOption spec value, rest)
    else (s.addOption spec "").map (·, rest)

/-- Reads the letters behind one dash. -/
def scanShort (specs : List OptionSpec) (s : Scan) (rest : List String) :
    List Char → Except Halt (Scan × List String)
  | [] => .ok (s, rest)
  | letter :: letters =>
    match specs.find? (·.short = some letter), letters with
    | none, _ => .error .misused
    | some spec, letters =>
      if spec.value.isSome then
        match letters with
        | [] => do
          let (value, rest) ← nextValue rest
          return (← s.addOption spec value, rest)
        | '=' :: value => (s.addOption spec (String.ofList value)).map (·, rest)
        | value => (s.addOption spec (String.ofList value)).map (·, rest)
      else do scanShort specs (← s.addOption spec "") rest letters

/-- Reads at most `count` arguments, and stops behind the name of a command. The second part of
the result is what has not been read. -/
def scanWithin (g : Grammar) :
    (count : Nat) → Scan → List String → Except Halt (Scan × List String)
  | 0, s, rest => .ok (s, rest)
  | _ + 1, s, [] => .ok (s, [])
  | count + 1, s, arg :: rest =>
    match arg.toList, g.words with
    | ['-', '-'], .commandName => .error .misused
    | ['-', '-'], .paths limit => (rest.foldlM (Scan.addPath limit) s).map (·, [])
    | '-' :: '-' :: body, _ => do
      let (s, rest) ← scanLong g.options s body rest
      scanWithin g count s rest
    | '-' :: letter :: letters, _ => do
      let (s, rest) ← scanShort g.options s rest (letter :: letters)
      scanWithin g count s rest
    | _, .commandName => .ok ({ s with words := [arg] }, rest)
    | _, .paths limit => do scanWithin g count (← s.addPath limit arg) rest

/-- Reads all arguments, or those up to the name of a command. -/
def scan (g : Grammar) (args : List String) : Except Halt (Scan × List String) :=
  scanWithin g args.length .empty args

end StackUsage.CommandLine

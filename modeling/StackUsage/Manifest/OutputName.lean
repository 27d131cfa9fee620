/-! The report name in a compile command. The object file is named by an output flag: on one line
of the command, with at least one character before the flag, the rightmost flag that can be
completed wins, its name runs up to the last `.o` that is not at the very end of the line, and the
first line on which that works is taken. -/

namespace StackUsage.Manifest

/-- What stands before the last occurrence of `mark` for which `accept` holds of the two sides. -/
def splitLast? (mark : List Char) (accept : List Char → List Char → Bool) :
    List Char → List Char → Option (List Char × List Char)
  | before, [] =>
    if mark.isPrefixOf [] && accept before.reverse [] then some (before.reverse, []) else none
  | before, c :: rest =>
    match splitLast? mark accept (c :: before) rest with
    | some found => some found
    | none =>
      if mark.isPrefixOf (c :: rest) && accept before.reverse ((c :: rest).drop mark.length) then
        some (before.reverse, (c :: rest).drop mark.length)
      else none

/-- The name after an output flag, if the text there has one: up to the last object suffix with
something before and behind it. -/
def objectName? (s : List Char) : Option (List Char) :=
  (splitLast? ".o".toList (fun name rest => !name.isEmpty && !rest.isEmpty) [] s).map (·.1)

/-- The name after the rightmost usable output flag of a line. -/
def outputName? (line : List Char) : Option (List Char) :=
  (splitLast? "-o ".toList (fun before rest => !before.isEmpty && (objectName? rest).isSome) []
    line).bind fun (_, rest) => objectName? rest

/-- The report file that a command writes beside its object file. -/
def reportName? (invocation extension : String) : Option String :=
  ((invocation.toList.splitOn '\n').findSome? outputName?).map fun name =>
    String.ofList name ++ "." ++ extension

end StackUsage.Manifest

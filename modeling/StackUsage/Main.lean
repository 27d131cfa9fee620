import StackUsage.CommandLine
import StackUsage.CommandLine.Listing

/-! The program: arguments from the command line, settings from the environment, and the file tree
as a listing on standard input. It decides nothing beyond where each part of the reply goes. -/

namespace StackUsage.CommandLine

/-- The variables that override settings. -/
def variableNames : List String :=
  ["STACKSCOPE_MANIFEST", "STACKSCOPE_REPORT_EXT", "STACKSCOPE_SOURCE_EXTENSIONS"]

def readEnvironment : IO (List (String × Option String)) :=
  variableNames.mapM fun name => return (name, ← IO.getEnv name)

def Reply.print (reply : Reply) : IO UInt32 := do
  (← IO.getStdout).putStr reply.output
  let stderr ← IO.getStderr
  for warning in reply.warnings do
    stderr.putStrLn ("WARN " ++ warning.message)
  match reply.errors with
  | [] => pure ()
  | error :: causes =>
    stderr.putStrLn ("Error: " ++ error)
    unless causes.isEmpty do
      stderr.putStrLn "\nCaused by:"
    for cause in causes do
      stderr.putStrLn ("    " ++ cause)
  return UInt32.ofNat reply.exitCode

end StackUsage.CommandLine

open StackUsage StackUsage.CommandLine in
def main (args : List String) : IO UInt32 := do
  let environment ← readEnvironment
  match listedTree? (← (← IO.getStdin).readToEnd) with
  | none =>
    (← IO.getStderr).putStrLn "Error: standard input holds no listing of a file tree"
    return 1
  | some t => (run t (fun name => (environment.lookup name).join) args).print

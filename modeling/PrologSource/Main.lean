import PrologSource.Command

namespace PrologSource

def readFile? (path : String) : IO (Option (List UInt8)) := do
  try
    return some (← IO.FS.readBinFile path).toList
  catch _ => return none

def finish (o : Outcome) : IO UInt32 := do
  (← IO.getStdout).putStr o.output
  if let some line := o.complaint then IO.eprintln line
  return o.exitCode.toUInt32

def readInput : IO (List UInt8) := do return (← (← IO.getStdin).readBinToEnd).toList

def followTrace (given : Option String) : IO UInt32 := do
  let input ← readInput
  let files ← (Command.tracedFiles given input).eraseDups.filterMapM fun path => do
    return (← readFile? path).map fun bytes => (path, bytes)
  finish (Command.trace (files.lookup ·) given input)

end PrologSource

open PrologSource in
/-- Lists the tokens of source text, sums up compiler output or follows a debugger trace, all from
the standard input. The tab width is set by the environment, and a trace may be given the one source
file that it is about. -/
def main (args : List String) : IO UInt32 := do
  match args with
  | ["tokens"] => finish (Command.listTokens (← IO.getEnv "TAB_WIDTH") (← readInput))
  | ["diagnostics"] => finish (Command.summarize (← readInput))
  | "marks" :: given => followTrace given.head?
  | _ =>
    IO.eprintln "usage: tokens | diagnostics | marks [source]"
    return 2

import ArrayCalc.CommandLine.Transcript
/-!
The program: arguments from the command line, lines from the standard input, reports to the standard
outputs as soon as they are known.
-/

namespace ArrayCalc.CommandLine

/-- What a report says, printed. -/
def Report.print (r : Report) : IO Unit := do
  IO.print r.out
  IO.eprint r.err

/-- Lines read and evaluated until the input ends. -/
partial def session (registry : Registry) (env : Environment) : IO Unit := do
  IO.print prompt
  (← IO.getStdout).flush
  let line ← (← IO.getStdin).getLine
  if line.isEmpty then IO.print "\n"
  else
    let (report, env) := runLine registry line env
    report.print
    session registry env

/-- Expressions evaluated and reported; whether one of them failed. -/
def evaluateAll (registry : Registry) (env : Environment) : List String → IO Bool
  | [] => return false
  | e :: es => do
    let (report, env) := runLine registry e env
    report.print
    return (← evaluateAll registry env es) || report.failed

/-- The program with the built-in verbs. -/
def program (arguments : List String) : IO UInt32 := do
  let registry := Registry.standard defaultLimit
  match request arguments with
  | .ok (.evaluate []) =>
    session registry .empty
    return 0
  | .ok (.evaluate (e :: es)) => return if ← evaluateAll registry .empty (e :: es) then 1 else 0
  | .ok .help =>
    IO.print helpText
    return 0
  | .error e =>
    let t := usageRun e
    IO.print t.out
    IO.eprint t.err
    return t.status.toUInt32

end ArrayCalc.CommandLine

/-- The program. -/
def main (arguments : List String) : IO UInt32 := ArrayCalc.CommandLine.program arguments

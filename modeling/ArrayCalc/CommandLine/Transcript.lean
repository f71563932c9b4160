import ArrayCalc.CommandLine.Options
import ArrayCalc.Display
import ArrayCalc.Primitive
import ArrayCalc.Sentence
/-!
What a run of the program prints.

* `Report`: what the evaluation of one line comes to, and its two outputs;
* `runLine`, `runLines`: lines evaluated in one environment, which outlasts their failures;
* `Transcript`: the status of a run and its two outputs; `expressionRun`, `sessionRun`: runs over
  expressions and over lines typed after a prompt; `run`: the program as a whole.
-/

namespace ArrayCalc.CommandLine

/-! ### One line -/

/-- What the evaluation of a line comes to. -/
inductive Report where
  | silent
  | value (n : Noun)
  | failure (f : Failure)

namespace Report

/-- The line failed. -/
def failed : Report → Bool
  | failure _ => true
  | _ => false

/-- What goes to the standard output. -/
def out : Report → String
  | value n => n.display ++ "\n"
  | _ => ""

/-- The lines of a complaint, the cause below what it led to. -/
def complaint : List String → List String
  | [] => []
  | m :: ms => ("error: " ++ m) :: ms.map ("  caused by: " ++ ·)

/-- What goes to the standard error output. -/
def err : Report → String
  | failure f => String.join ((complaint f.messages).map (· ++ "\n"))
  | _ => ""

/-- The report on the result of a line. -/
def ofResult : Except Failure (Option Noun) → Report
  | .error f => failure f
  | .ok none => silent
  | .ok (some n) => value n

end Report

/-- A line evaluated, and the environment afterwards. -/
def runLine (registry : Registry) (line : String) (env : Environment) : Report × Environment :=
  let (result, env) := (evaluate registry line).carryOut env
  (.ofResult result, env)

/-- Lines evaluated one after the other, and the environment after the last. -/
def runLines (registry : Registry) : List String → Environment → List Report × Environment
  | [], env => ([], env)
  | l :: ls, env =>
    let (r, env) := runLine registry l env
    let (rs, env) := runLines registry ls env
    (r :: rs, env)

/-! ### Whole runs -/

/-- The status of a run and what it printed. -/
structure Transcript where
  status : Nat
  out : String
  err : String
  deriving DecidableEq, Repr

/-- Status of a run that was not understood. -/
def usageStatus : Nat := 2

/-- Status of a run that was interrupted. -/
def interruptedStatus : Nat := 130

/-- What a session shows before it waits for a line. -/
def prompt : String := "    "

/-- A text cut behind each line end. -/
def linesOf : List Char → List (List Char)
  | [] => []
  | c :: r =>
    if c = '\n' then [c] :: linesOf r
    else
      match linesOf r with
      | [] => [[c]]
      | l :: ls => (c :: l) :: ls

/-- Nothing is lost in cutting. -/
theorem flatten_linesOf (s : List Char) : (linesOf s).flatten = s := by
  induction s with
  | nil => rfl
  | cons c r ih =>
    rw [linesOf]
    split
    · rw [List.flatten_cons, ih, List.singleton_append]
    · split
      · rename_i h
        rw [h] at ih
        simp [← ih]
      · rename_i h
        rw [h] at ih
        simpa using ih

/-- A run over expressions. -/
def expressionRun (registry : Registry) (expressions : List String) : Transcript :=
  let reports := (runLines registry expressions .empty).1
  { status := if reports.any Report.failed then 1 else 0
    out := String.join (reports.map Report.out)
    err := String.join (reports.map Report.err) }

/-- A run over the lines typed, up to the end of the input or an interruption in its place. -/
def sessionRun (registry : Registry) (input : String) (interrupted : Bool) : Transcript :=
  let lines := (linesOf input.toList).map String.ofList
  let reports := (runLines registry lines .empty).1
  let out := String.join (reports.map fun r => prompt ++ r.out) ++ prompt
  let err := String.join (reports.map Report.err)
  if interrupted then { status := interruptedStatus, out := out, err := err ++ "\n" }
  else { status := 0, out := out ++ "\n", err := err }

/-- What is printed for arguments that are not understood. -/
def usageRun (e : UsageError) : Transcript :=
  { status := usageStatus
    out := ""
    err := usageLine ++ programName ++ ": error: " ++ e.message ++ "\n" }

/-- A run of the program with these arguments and this input. -/
def run (registry : Registry) (arguments : List String) (input : String) (interrupted : Bool) :
    Transcript :=
  match request arguments with
  | .error e => usageRun e
  | .ok .help => { status := 0, out := helpText, err := "" }
  | .ok (.evaluate []) => sessionRun registry input interrupted
  | .ok (.evaluate (e :: es)) => expressionRun registry (e :: es)

end ArrayCalc.CommandLine

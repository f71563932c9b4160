import ArrayCalc.Text.Digit
import ArrayCalc.Text.Quoted
/-!
Options of the command line.

* `Role`: what a single argument is taken for, and `role`: the rule for it.  An option may be
  shortened as long as it is still the only one meant; its value may stand in the same argument,
  after an equals sign, or, for a short option, right behind it;
* `Request`: what the arguments ask for, and `request`: the arguments gathered from left to right.
  Help is given as soon as it is asked for; what is left over is reported at the end;
* `UsageError`: what may be wrong with arguments; `usageLine`, `helpText`: what the program says of
  itself.

An argument that begins with a dash is an option, unless it is a negative number or holds a blank.
Behind `--` nothing is an option any more.
-/

namespace ArrayCalc.CommandLine

/-! ### What the program says of itself -/

/-- The name by which the program speaks of itself. -/
def programName : String := "apl-jax"

/-- The options in one line. -/
def usageLine : String := "usage: " ++ programName ++ " [-h] [-e EXPR]\n"

/-- The options in full. -/
def helpText : String :=
  usageLine ++ "\n"
    ++ "Evaluate J-style array expressions from the command line or interactively.\n"
    ++ "\n"
    ++ "options:\n"
    ++ "  -h, --help            show this help message and exit\n"
    ++ "  -e EXPR, --eval EXPR  evaluate EXPR and print the result (repeatable; names\n"
    ++ "                        persist across expressions)\n"

/-- What may be wrong with arguments. -/
inductive UsageError where
  | missingValue
  | surplusValue (value : String)
  | ambiguous (argument : String)
  | unrecognized (arguments : List String)
  deriving DecidableEq, Repr

/-- The wording of a usage error. -/
def UsageError.message : UsageError → String
  | missingValue => "argument -e/--eval: expected one argument"
  | surplusValue v => "argument -h/--help: ignored explicit argument " ++ Text.quoted v
  | ambiguous a => "ambiguous option: " ++ a ++ " could match --help, --eval"
  | unrecognized as => "unrecognized arguments: " ++ " ".intercalate as

/-! ### One argument -/

/-- The mark behind which there are no options. -/
def separator : String := "--"

/-- What an argument is taken for. -/
inductive Role where
  /-- A word of its own, which may be the value of an option before it. -/
  | plain
  /-- An option that does not exist, or the mark behind which there are none. -/
  | stray
  /-- An expression to evaluate. -/
  | eval (expression : String)
  /-- The next argument is an expression to evaluate. -/
  | evalNext
  /-- A request for help. -/
  | help
  /-- A request for help that needs a value, which it will not use. -/
  | helpNext
  /-- A request for help with a value, which it does not take. -/
  | surplus (value : String)
  deriving DecidableEq, Repr

/-- A minus sign and digits, with or without a point; one line end behind the last digit does not
count. -/
def isNegativeNumber : List Char → Bool
  | '-' :: r =>
    match r.span Text.isDigit with
    | (ds, []) => !ds.isEmpty
    | (ds, ['\n']) => !ds.isEmpty
    | (_, '.' :: f) => isFraction (f.span Text.isDigit)
    | _ => false
  | _ => false
where
  /-- Digits, and at most a line end after them. -/
  isFraction : List Char × List Char → Bool
    | (ds, rest) => !ds.isEmpty && (rest.isEmpty || rest == ['\n'])

/-- The role of a short request for help with more letters behind it.  Each letter is a short option
of its own, of which the last may lack its expression; letters that are no options are a value,
which a request for help does not take. -/
def cluster : List Char → Role
  | [] => .help
  | 'h' :: r => cluster r
  | ['e'] => .helpNext
  | 'e' :: _ => .help
  | r => .surplus (String.ofList r)

/-- The role of an option with an expression in the same argument.  The mark that ends the options
is no expression; in the place of one it leaves an empty expression. -/
def evalRole (value : List Char) : Role :=
  .eval (if value = separator.toList then "" else String.ofList value)

/-- The role of an option by its full name, with the value given in the same argument, if any. -/
def named? (name : List Char) (value : Option (List Char)) : Option Role :=
  if name = "-h".toList then
    some <| match value with
      | none => .help
      | some [] => .surplus ""
      | some v => cluster v
  else if name = "--help".toList then
    some <| match value with
      | none => .help
      | some v => .surplus (String.ofList v)
  else if name = "-e".toList ∨ name = "--eval".toList then
    some <| match value with
      | none => .evalNext
      | some v => evalRole v
  else none

/-- The long options that begin with a text. -/
def completions (text : List Char) : List (List Char) :=
  ["--help".toList, "--eval".toList].filter text.isPrefixOf

/-- A text up to its first equals sign and, if there is one, the rest behind it. -/
def splitValue (s : List Char) : List Char × Option (List Char) :=
  match s.span (· != '=') with
  | (name, _ :: value) => (name, some value)
  | (name, []) => (name, none)

/-- The role of an argument that no option matches. -/
def unmatched (s : List Char) : Role := if isNegativeNumber s || ' ' ∈ s then .plain else .stray

/-- The role of an argument that begins with a dash and something else. -/
def dashed (s : List Char) : Except UsageError Role :=
  let (name, value) := splitValue s
  match named? name value with
  | some r => .ok r
  | none =>
    match s with
    | '-' :: '-' :: _ =>
      match completions name with
      | [] => .ok (unmatched s)
      | [full] => .ok ((named? full value).getD .stray)
      | _ => .error (.ambiguous (String.ofList s))
    | '-' :: 'e' :: v => .ok (evalRole v)
    | '-' :: 'h' :: r => .ok (cluster r)
    | _ => .ok (unmatched s)

/-- The role of an argument. -/
def role (argument : String) : Except UsageError Role :=
  match argument.toList with
  | '-' :: c :: r => dashed ('-' :: c :: r)
  | _ => .ok .plain

/-! ### All arguments -/

/-- The arguments with their roles. -/
def roles : List String → Except UsageError (List (String × Role))
  | [] => .ok []
  | a :: as =>
    if a = separator then .ok ((a, .stray) :: as.map fun a => (a, .plain))
    else do return (a, ← role a) :: (← roles as)

/-- What the arguments ask for: help, or expressions to evaluate; without any expression, a
session. -/
inductive Request where
  | help
  | evaluate (expressions : List String)
  deriving DecidableEq, Repr

/-- Arguments gathered from left to right, behind the expressions and the unused arguments found so
far. -/
def gather (expressions leftOver : List String) :
    List (String × Role) → Except UsageError Request
  | [] => if leftOver.isEmpty then .ok (.evaluate expressions) else .error (.unrecognized leftOver)
  | (a, .plain) :: rest => gather expressions (leftOver ++ [a]) rest
  | (a, .stray) :: rest => gather expressions (leftOver ++ [a]) rest
  | (_, .eval e) :: rest => gather (expressions ++ [e]) leftOver rest
  | (_, .evalNext) :: (e, .plain) :: rest => gather (expressions ++ [e]) leftOver rest
  | (_, .evalNext) :: _ => .error .missingValue
  | (_, .help) :: _ => .ok .help
  | (_, .helpNext) :: (_, .plain) :: _ => .ok .help
  | (_, .helpNext) :: _ => .error .missingValue
  | (_, .surplus v) :: _ => .error (.surplusValue v)

/-- What the arguments ask for. -/
def request (arguments : List String) : Except UsageError Request := do
  gather [] [] (← roles arguments)

end ArrayCalc.CommandLine

import ArrayCalc.Environment
import ArrayCalc.Lexer.Scan
import ArrayCalc.Numeral
import ArrayCalc.Verb
/-!
Sentences.

A line is a list of words; line ends part it into statements.  A statement is read from the right:
the last word is a noun, and each verb before it is applied to what has been found so far, together
with the noun on its left if there is one.

* `Evaluation`: what may read and change the environment and may fail; changes made before a failure
  stay;
* `nounOf`: the noun that a word stands for; `apply`: a verb applied, its failure told as one of the
  sentence;
* `scan`: the verbs of an expression from right to left; `statement`: an expression, or an
  assignment of what follows, where `bindName` binds the name;
* `interpret`: the statements of a line; `evaluate`: those of a source.

Sentences are taken as they are meant.  The stack is as deep as a statement needs, the backend holds
every array that the limit of `i.` admits, of any rank, and a source is a list of characters, none
of which is one half of a surrogate pair.
-/

namespace ArrayCalc

open Lexer

/-- A step that may read and change the environment and may fail. -/
abbrev Evaluation := ExceptT Failure (StateM Environment)

/-- The symbol that assigns. -/
def assignSymbol : String := "=:"

/-! ### Statements of a line -/

/-- The words up to each line end; the words after the last one come last. -/
def splitLines : List Token → List (List Token)
  | [] => [[]]
  | t :: ts =>
    if t.kind = .eol then [] :: splitLines ts
    else
      match splitLines ts with
      | [] => [[t]]
      | l :: ls => (t :: l) :: ls

/-- A statement has a word. -/
abbrev Statement := { ts : List Token // ts ≠ [] }

/-- The statements among lists of words: those that are not empty. -/
def nonempty : List (List Token) → List Statement
  | [] => []
  | [] :: ls => nonempty ls
  | (t :: ts) :: ls => ⟨t :: ts, List.cons_ne_nil t ts⟩ :: nonempty ls

/-- The statements of a line; empty ones do not count. -/
def statements (ts : List Token) : List Statement := nonempty (splitLines ts)

/-! ### Expressions -/

/-- The noun that a word stands for. -/
def nounOf (t : Token) : Evaluation Noun :=
  match t.kind with
  | .number => liftExcept (numberLiteral t)
  | .name => do
    match (← get).get? t.text with
    | some n => return n
    | none => throw (.plain (.evaluation (.undefinedName t.text t.pos)))
  | .string => throw (.plain (.evaluation (.stringLiteral t.pos)))
  | kind => throw (.plain (.evaluation (.expectedNoun kind t.text t.pos)))
where
  /-- A result that does not touch the environment. -/
  liftExcept (r : Except Failure Noun) : Evaluation Noun := ExceptT.mk (pure r)

/-- What a failing verb does to its sentence: errors of our own become the cause of a failure of the
sentence, alarms of the machinery are classified first, and everything else passes as it is. -/
def failureOf (valence : Valence) (t : Token) (e : Error) : Failure :=
  let failed := Error.evaluation (.failed valence t.text t.pos)
  match e.family with
  | .runtime => ⟨failed, [e]⟩
  | .alarm a => if a.isVerbFailure then ⟨failed, [e.classified]⟩ else .plain e
  | .reading => .plain e

/-- The result of a verb in a sentence. -/
def apply (valence : Valence) (t : Token) (result : Except Error Noun) : Evaluation Noun :=
  ExceptT.mk (pure (result.mapError (failureOf valence t)))

/-- A verb looked up, or the failure to find it. -/
def look {α : Type} (r : Except Error α) : Evaluation α := ExceptT.mk (pure (r.mapError .plain))

/-- The words before what has been found so far, the nearest first.  A verb takes the word on its
left along if that is a numeral or a name; it is looked up before that word is. -/
def scan (registry : Registry) : List Token → Noun → Evaluation Noun
  | [], right => pure right
  | t :: rest, right => do
    if t.kind ≠ .operator then
      throw (.plain (.evaluation (.nonsensical t.kind t.text t.pos)))
    match rest with
    | [] =>
      let f ← look (registry.monad t.text)
      apply .monadic t (f right)
    | l :: rest' =>
      if l.kind.isNoun then
        let f ← look (registry.dyad t.text)
        let left ← nounOf l
        scan registry rest' (← apply .dyadic t (f.apply left right))
      else
        let f ← look (registry.monad t.text)
        scan registry (l :: rest') (← apply .monadic t (f right))

/-- An expression: its last word is a noun, and the verbs before it are applied to that. -/
def expression (registry : Registry) (ts : List Token) (h : ts ≠ []) : Evaluation Noun := do
  let right ← nounOf (ts.getLast h)
  scan registry ts.dropLast.reverse right

/-- A name bound to a value; the environment refuses a value that is no noun.  No statement comes to
that: numerals and names stand for nouns, and verbs give back nouns, so that every value found is
one. -/
def bindName (name : String) (value : Host) : Evaluation Unit := do
  match (← get).bind name value with
  | .ok env => set env
  | .error e => throw (.plain e)

/-- A name followed by the symbol that assigns. -/
def isAssignment (name symbol : Token) : Bool :=
  name.kind = .name && symbol.kind = .operator && symbol.text = assignSymbol

/-- A statement.  An assignment binds its name to the value of the rest of the statement once that
has been found.  Assignments may follow each other without a bound; a machine on which each of them
takes a frame of its stack gives up at some depth, and that is not part of what a statement does
here. -/
def statement (registry : Registry) : (ts : List Token) → ts ≠ [] → Evaluation Noun
  | name :: symbol :: rest, h =>
    if isAssignment name symbol then
      match rest with
      | [] => throw (.plain (.evaluation (.nothingToAssign name.text)))
      | t :: ts => do
        let value ← statement registry (t :: ts) (List.cons_ne_nil t ts)
        bindName name.text (.noun value)
        return value
    else expression registry (name :: symbol :: rest) h
  | ts, h => expression registry ts h

/-! ### Lines and sources -/

/-- A statement of a line carried out, whatever the value of the one before it was. -/
def follow (registry : Registry) (_ : Option Noun) (s : Statement) : Evaluation (Option Noun) :=
  some <$> statement registry s.1 s.2

/-- The statements of a line in order; the value is that of the last one, if there is any. -/
def interpret (registry : Registry) (ts : List Token) : Evaluation (Option Noun) :=
  (statements ts).foldlM (follow registry) none

/-- A source cut into words and evaluated. -/
def evaluate (registry : Registry) (source : String) : Evaluation (Option Noun) :=
  match tokenize source with
  | .error e => throw (.plain (.lex e))
  | .ok ts => interpret registry ts

/-- An evaluation carried out: its result, and the environment afterwards. -/
def Evaluation.carryOut {α : Type} (e : Evaluation α) (env : Environment) :
    Except Failure α × Environment := StateT.run (ExceptT.run e) env

end ArrayCalc

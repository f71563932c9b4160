import ArrayCalc.Kind
import ArrayCalc.Lexer.Automaton
import ArrayCalc.Lexer.Token
import ArrayCalc.Shape
import ArrayCalc.Text.Quoted
import ArrayCalc.Valence
/-!
What can go wrong, by cause.

* one type for each field: `LexError`, `NumeralError`, `ShapeError`, `PromotionError`,
  `DomainError`, `EvaluationError`, and `Error` for all of them;
* `Error.message`, `Error.name`: the wording and the class of an error;
* `Error.classified`: how an alarm of the machinery underneath is reported as one of ours;
* `Failure`: an error together with the errors that led to it, and `Failure.messages`.

The constructors `reported` stand for what a verb from outside the library says in its own words.
-/

namespace ArrayCalc

open Lexer Text

/-- A source that cannot be cut into words, or a table that cannot cut one. -/
inductive LexError where
  | unterminated (start stop : Nat)
  | missingEntry (state : State) (input : Option CharClass)
  | tokenless (state : State)
  | strayEnd (state : State)
  | reported (message : String) (start stop : Int)
  deriving DecidableEq, Repr

namespace LexError

/-- Where the offending span starts. -/
def start : LexError → Int
  | unterminated start _ => start
  | reported _ start _ => start
  | _ => 0

/-- Where the offending span ends. -/
def stop : LexError → Int
  | unterminated _ stop => stop
  | reported _ _ stop => stop
  | _ => 0

/-- The label of an input, the end of the input having none. -/
def inputLabel : Option CharClass → String
  | some c => c.label
  | none => "None"

/-- What is wrong, without the span. -/
def complaint : LexError → String
  | unterminated _ _ => "Unterminated string literal"
  | missingEntry s c => "Transition table has no entry for " ++ s.label ++ "/" ++ inputLabel c
  | tokenless s => "Transition table emits from token-less state " ++ s.label
  | strayEnd s => "End of input from " ++ s.label ++ " does not reach LINE_BREAK"
  | reported m _ _ => m

/-- What is wrong and where. -/
def message (e : LexError) : String :=
  e.complaint ++ " at span [" ++ e.start.repr ++ ", " ++ e.stop.repr ++ ")"

end LexError

/-- A text that is no numeral. -/
inductive NumeralError where
  | malformed (text : String)
  | tooLong (digits : Nat)
  | outOfRange (text : String)
  deriving DecidableEq, Repr

/-- How many digits an integer numeral may have, leading zeros included. -/
def maxDigits : Nat := 4300

/-- The wording; an overlong numeral is refused before its value is looked at. -/
def NumeralError.message : NumeralError → String
  | malformed t => "invalid numeral syntax " ++ quoted t
  | tooLong n =>
    "Exceeds the limit (" ++ maxDigits.repr ++ " digits) for integer string conversion: value has "
      ++ n.repr ++ " digits; use sys.set_int_max_str_digits() to increase the limit"
  | outOfRange t => "integer " ++ quoted t ++ " does not fit in 64 bits"

/-- Shapes, data and indices that do not go together. -/
inductive ShapeError where
  | negativeExtent (shape : List Int)
  | unfilled (count : Nat) (shape : List Nat)
  | indexLength (length : Nat) (shape : List Int)
  | outOfBounds (index shape : List Int)
  | disagreement (left right : List Nat)
  | notAtomic (shape : List Nat)
  | reported (message : String) (shapes : List (List Int))
  deriving DecidableEq, Repr

namespace ShapeError

/-- The wording; shapes that arrays have are shown as words, requested ones as tuples. -/
def message : ShapeError → String
  | negativeExtent s => "Negative extent in shape " ++ Shape.tuple s
  | unfilled n s =>
    "Backing data of length " ++ n.repr ++ " does not fill shape " ++ Shape.words (Shape.extents s)
  | indexLength n s =>
    "Index of length " ++ n.repr ++ " does not match array rank " ++ s.length.repr
  | outOfBounds i s =>
    "Index " ++ Shape.tuple i ++ " is out of bounds for shape " ++ Shape.words s
  | disagreement a b =>
    "Incompatible array shapes for dyadic operation: " ++ Shape.words (Shape.extents a) ++ " and "
      ++ Shape.words (Shape.extents b)
  | notAtomic s => "Atom value must be rank 0, got shape " ++ Shape.tuple (Shape.extents s)
  | reported m _ => m

/-- The shapes that the error is about. -/
def shapes : ShapeError → List (List Int)
  | negativeExtent s => [s]
  | unfilled _ s => [Shape.extents s]
  | indexLength _ s => [s]
  | outOfBounds _ s => [s]
  | disagreement a b => [Shape.extents a, Shape.extents b]
  | notAtomic s => [Shape.extents s]
  | reported _ ss => ss

end ShapeError

/-- The two operands of a dyad. -/
inductive Side where
  | left
  | right
  deriving DecidableEq, Repr

/-- The word for a side. -/
def Side.name : Side → String
  | left => "left"
  | right => "right"

/-- Operands without a common kind. -/
inductive PromotionError where
  | narrowing (source target : Kind)
  | nonNumeric (storage : String)
  | notNoun (side : Side) (typeName : String)
  | reported (message : String)
  deriving DecidableEq, Repr

/-- The wording. -/
def PromotionError.message : PromotionError → String
  | narrowing a b => "Cannot narrow " ++ a.name ++ " to " ++ b.name
  | nonNumeric s => "No numeric kind for element type " ++ s
  | notNoun side t => "Incompatible types for promotion: " ++ side.name ++ " operand is " ++ t
  | reported m => m

/-- An argument outside the domain of a verb. -/
inductive DomainError where
  | fractionalExtents
  | extentsRank (rank : Nat)
  | negativeExtents (extents : List Int)
  | tooLarge (shape : List Int) (limit : Nat)
  | outOfMemory (message : String)
  | reported (message : String)
  deriving DecidableEq, Repr

/-- The wording; the verb that counts up names itself. -/
def DomainError.message : DomainError → String
  | fractionalExtents => "i. expects integer extents, got decimal"
  | extentsRank r => "i. expects an atom or a list of extents, got rank " ++ r.repr
  | negativeExtents es => "i. expects non-negative extents, got " ++ Shape.tuple es
  | tooLarge s limit =>
    "Shape " ++ Shape.words s ++ " exceeds the limit of " ++ limit.repr ++ " elements"
  | outOfMemory m => "Result does not fit in memory: " ++ m
  | reported m => m

/-- A statement that makes no sense, or one in which a verb failed. -/
inductive EvaluationError where
  | undefinedName (name : String) (pos : Int)
  | stringLiteral (pos : Int)
  | expectedNoun (kind : TokenKind) (text : String) (pos : Int)
  | nonsensical (kind : TokenKind) (text : String) (pos : Int)
  | nothingToAssign (name : String)
  | failed (valence : Valence) (symbol : String) (pos : Int)
  | reported (message : String)
  deriving DecidableEq, Repr

/-- The wording, with the place in the source where there is one. -/
def EvaluationError.message : EvaluationError → String
  | undefinedName n p => "Undefined name " ++ quoted n ++ " at index " ++ p.repr
  | stringLiteral p => "String literal at index " ++ p.repr ++ " is not a noun"
  | expectedNoun k t p =>
    "Expected a noun at index " ++ p.repr ++ ", found " ++ k.label ++ " " ++ quoted t
  | nonsensical k t p =>
    "Nonsensical token " ++ k.label ++ " " ++ quoted t ++ " at index " ++ p.repr
  | nothingToAssign n => "Nothing to assign to " ++ quoted n
  | failed v s p => v.title ++ " " ++ quoted s ++ " failed at index " ++ p.repr
  | reported m => m

/-- Alarms of the machinery underneath, by the name that they go by.  The first is the one of the
array backend itself, which no verb of the catalog meets as long as the backend holds what it is
asked to hold. -/
inductive Alarm where
  | backend
  | memory
  | overflow
  | type
  | value
  | key
  | zeroDivision
  | unlisted (name : String)
  deriving DecidableEq, Repr

namespace Alarm

/-- The name that an alarm goes by. -/
def name : Alarm → String
  | backend => "JaxRuntimeError"
  | memory => "MemoryError"
  | overflow => "OverflowError"
  | type => "TypeError"
  | value => "ValueError"
  | key => "KeyError"
  | zeroDivision => "ZeroDivisionError"
  | unlisted n => n

/-- The alarms that count as the failure of a verb. -/
def isVerbFailure : Alarm → Bool
  | backend | memory | overflow | type | value => true
  | key | zeroDivision | unlisted _ => false

end Alarm

/-- Anything that can go wrong. -/
inductive Error where
  | lex (e : LexError)
  | literal (text : String)
  | numeral (e : NumeralError)
  | notNumber (kind : TokenKind)
  | duplicateVerb (symbol : String)
  | unsupported (place typeName : String)
  | unbound (name : String)
  | unreadable
  | unrepresentable
  | shape (e : ShapeError)
  | promotion (e : PromotionError)
  | domain (e : DomainError)
  | unknownVerb (valence : Valence) (symbol : String)
  | evaluation (e : EvaluationError)
  | runtime (message : String)
  | alarm (a : Alarm) (message : String)
  deriving DecidableEq, Repr

namespace Error

/-- The wording of an error. -/
def message : Error → String
  | lex e => e.message
  | literal t => "Failed to parse " ++ quoted t ++ " as a number"
  | numeral e => e.message
  | notNumber k => "Expected a NUMBER token, got " ++ k.label
  | duplicateVerb s => "Duplicate verb symbol " ++ quoted s
  | unsupported place t => place ++ " has unsupported runtime type " ++ t
  | unbound n => quoted n
  | unreadable => "Values cannot be read as one array"
  | unrepresentable => "Value does not fit the kind asked for"
  | shape e => e.message
  | promotion e => e.message
  | domain e => e.message
  | unknownVerb v s => "Unknown " ++ v.name ++ " verb " ++ quoted s
  | evaluation e => e.message
  | runtime m => m
  | alarm _ m => m

/-- What an error counts as: one of ours, raised while a sentence runs; one of ours, raised before
it runs; or an alarm. -/
inductive Family where
  | runtime
  | reading
  | alarm (a : Alarm)
  deriving DecidableEq, Repr

/-- The family of an error. -/
def family : Error → Family
  | lex _ | literal _ => .reading
  | numeral _ | notNumber _ | duplicateVerb _ | unreadable => .alarm .value
  | unsupported _ _ => .alarm .type
  | unbound _ => .alarm .key
  | unrepresentable => .alarm .overflow
  | shape _ | promotion _ | domain _ | unknownVerb _ _ | evaluation _ | runtime _ => .runtime
  | alarm a _ => .alarm a

/-- The class of an error. -/
def name : Error → String
  | lex _ => "APLLexError"
  | literal _ => "APLLiteralError"
  | numeral _ | notNumber _ | duplicateVerb _ | unreadable => Alarm.value.name
  | unsupported _ _ => Alarm.type.name
  | unbound _ => Alarm.key.name
  | unrepresentable => Alarm.overflow.name
  | shape _ => "APLShapeError"
  | promotion _ => "APLPromotionError"
  | domain _ => "APLDomainError"
  | unknownVerb _ _ => "APLUnknownVerbError"
  | evaluation _ => "APLEvaluationError"
  | runtime _ => "APLRuntimeError"
  | alarm a _ => a.name

/-- The wording of an error, or its class if it says nothing. -/
def text (e : Error) : String := if e.message = "" then e.name else e.message

/-! ### Reporting alarms -/

/-- Phrases that speak of memory. -/
def memoryPhrases : List String := ["resource_exhausted", "out of memory"]

/-- Phrases that speak of shapes. -/
def shapePhrases : List String := ["shape", "rank", "dimension", "extent", "broadcast", "reshape"]

/-- One of the phrases stands in the text, letter case aside. -/
def mentions (phrases : List String) (s : String) : Bool :=
  phrases.any fun p => occursIn p.toList (folded s)

/-- Any error, told as one that a verb may have: want of memory first, then shapes, then the rest.
A memory alarm is about memory whatever it says. -/
def classified (e : Error) : Error :=
  if e.family = .alarm .memory ∨ mentions memoryPhrases e.text then
    .domain (.outOfMemory e.text)
  else if mentions shapePhrases e.text then .shape (.reported e.text [])
  else .runtime e.text

end Error

/-! ### Failures -/

/-- An error and the errors that led to it, the nearest first. -/
structure Failure where
  error : Error
  causes : List Error
  deriving DecidableEq, Repr

namespace Failure

/-- A failure that nothing else led to. -/
def plain (e : Error) : Failure := ⟨e, []⟩

/-- What a failure says, the outermost error first. -/
def messages (f : Failure) : List String := (f.error :: f.causes).map Error.text

end Failure

end ArrayCalc

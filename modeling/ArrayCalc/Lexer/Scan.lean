import ArrayCalc.Error
/-!
Cutting a source into words.

* `Table.accepted`: a table, if it can be run: no gaps, no words from states that make none, and at
  the end of the input only line breaks left; `Table.check`: how many entries it has then;
* `Table.scan`: a table run over a source, one step for each character and one for its end, after
  which the span still open is the last word;
* `tokenize`: the built-in table run over a source.
-/

namespace ArrayCalc.Lexer

/-- The kind of the words that end in a state; outside of words there are none. -/
def State.tokenKind : State → Option TokenKind
  | .initial | .whitespace => none
  | .other => some .operator
  | .alphanumeric => some .name
  | .numeric => some .number
  | .quoted | .doubleQuoted => some .string
  | .lineBreak => some .eol

/-! ### Tables that can be run -/

/-- What is wrong with the entry for a state and an input. -/
def Table.entryDefect? (t : Table) (s : State) (c : Option CharClass) : Option LexError :=
  match t s c with
  | none => some (.missingEntry s c)
  | some next =>
    if (next.action.emits || next.action.appends) && s.tokenKind.isNone then some (.tokenless s)
    else none

/-- What is wrong with the end of the input in a state. -/
def Table.endDefect? (t : Table) (s : State) : Option LexError :=
  match t s none with
  | none => none
  | some next =>
    if next.action ≠ .stop ∧ next.target ≠ .lineBreak then some (.strayEnd s) else none

/-- The first thing wrong with a table: entries first, state by state, then the ends of input. -/
def Table.defect? (t : Table) : Option LexError :=
  (State.all.findSome? fun s => inputs.findSome? (t.entryDefect? s)).or
    (State.all.findSome? t.endDefect?)

/-- The table itself, provided that nothing is wrong with it. -/
def Table.accepted (t : Table) : Except LexError Table :=
  match t.defect? with
  | some e => .error e
  | none => .ok t

/-- How many entries a table has. -/
def Table.size (t : Table) : Nat := (State.all.flatMap fun s => inputs.filterMap (t s)).length

/-- The number of entries of a table that is accepted. -/
def Table.check (t : Table) : Except LexError Nat := t.accepted.map Table.size

/-! ### Running a table -/

/-- What is remembered between two characters: the state, where the open span starts, and the words
so far, the last one first. -/
structure Machine where
  state : State
  start : Nat
  words : List Token
  deriving DecidableEq, Repr

/-- Before the first character. -/
def Machine.initial : Machine := ⟨.initial, 0, []⟩

/-- The characters from one place up to another. -/
def slice (source : List Char) (start stop : Nat) : List Char :=
  (source.drop start).take (stop - start)

/-- The word between two places; a numeral is the only part of its list. -/
def wordAt (source : List Char) (start stop : Nat) (kind : TokenKind) : Token :=
  let text := String.ofList (slice source start stop)
  ⟨kind, text, start, stop, if kind = .number then [text] else []⟩

/-- A numeral list with one more numeral, which starts at `start`; the text grows up to `stop`. -/
def Token.extend (t : Token) (source : List Char) (start stop : Nat) : Token :=
  { t with
    text := String.ofList (slice source t.pos.toNat stop)
    stop := stop
    parts := t.parts ++ [String.ofList (slice source start stop)] }

/-- The open span as a word of its own. -/
def Machine.emit (m : Machine) (source : List Char) (stop : Nat) : Except LexError (List Token) :=
  match m.state.tokenKind with
  | none => .error (.tokenless m.state)
  | some kind => .ok (wordAt source m.start stop kind :: m.words)

/-- The open span as a part of the numeral list before it, if it is a numeral and there is one, and
as a word of its own otherwise. -/
def Machine.append (m : Machine) (source : List Char) (stop : Nat) : Except LexError (List Token) :=
  match m.words with
  | last :: words =>
    if m.state = .numeric ∧ last.kind = .number then
      .ok (last.extend source m.start stop :: words)
    else m.emit source stop
  | [] => m.emit source stop

/-- One step, at a place in the source. -/
def Table.step (t : Table) (source : List Char) (place : Nat) (input : Option CharClass)
    (m : Machine) : Except LexError Machine :=
  match t m.state input with
  | none => .error (.missingEntry m.state input)
  | some next =>
    if next.action = .stop then .error (.unterminated m.start place)
    else do
      let words ← if next.action.emits then m.emit source place
        else if next.action.appends then m.append source place
        else .ok m.words
      return ⟨next.target, if next.action.opensSpan then place else m.start, words⟩

/-- The steps for the rest of the source and for its end. -/
def Table.run (t : Table) (source : List Char) : Nat → List Char → Machine → Except LexError Machine
  | i, [], m => t.step source i none m
  | i, c :: rest, m => do t.run source (i + 1) rest (← t.step source i (some (.ofChar c)) m)

/-- A table run over a source; the span open at the end is the last word. -/
def Table.scan (t : Table) (source : List Char) : Except LexError (List Token) := do
  let m ← t.run source 0 source .initial
  let words ← m.emit source source.length
  return words.reverse

/-- The words of a source.  A source ends with an empty word, the end of its last line. -/
def tokenize (source : String) : Except LexError (List Token) := Table.standard.scan source.toList

end ArrayCalc.Lexer

import ArrayCalc.Lexer.CharClass
/-!
The automaton that cuts a source into words.

* `State`, `Action`: what the automaton remembers between two characters, and what is done with the
  span of characters it has open;
* `Table`: a transition for each state and each class, `none` standing for the end of the input;
  a table may lack entries;
* `transition`: the built-in table, a total function, and `Table.standard`, the same as a table;
* `Table.set`, `Table.erase`: a table with one entry changed.
-/

namespace ArrayCalc.Lexer

/-- What kind of word the automaton is inside of. -/
inductive State where
  | initial
  | whitespace
  | other
  | alphanumeric
  | numeric
  | quoted
  | doubleQuoted
  | lineBreak
  deriving DecidableEq, Repr

namespace State

/-- The states in the order in which tables are inspected. -/
def all : List State :=
  [initial, whitespace, other, alphanumeric, numeric, quoted, doubleQuoted, lineBreak]

theorem mem_all (s : State) : s ∈ all := by cases s <;> decide

/-- The name by which a state is asked for. -/
def name : State → String
  | initial => "initial"
  | whitespace => "whitespace"
  | other => "other"
  | alphanumeric => "alphanumeric"
  | numeric => "numeric"
  | quoted => "quoted"
  | doubleQuoted => "double_quoted"
  | lineBreak => "line_break"

/-- The name by which a state is reported. -/
def label : State → String
  | initial => "INITIAL"
  | whitespace => "WHITESPACE"
  | other => "OTHER"
  | alphanumeric => "ALPHANUMERIC"
  | numeric => "NUMERIC"
  | quoted => "QUOTED"
  | doubleQuoted => "DOUBLE_QUOTED"
  | lineBreak => "LINE_BREAK"

end State

/-- What is done when a character has been read: nothing, opening a span, closing the open span as
a word of its own, closing it as one more part of a numeral list, or giving up. -/
inductive Action where
  | noAction
  | advance
  | emitAndAdvance
  | emitAndReset
  | appendAndAdvance
  | appendAndReset
  | stop
  deriving DecidableEq, Repr

namespace Action

/-- All actions. -/
def all : List Action :=
  [noAction, advance, emitAndAdvance, emitAndReset, appendAndAdvance, appendAndReset, stop]

/-- The name by which an action is asked for. -/
def name : Action → String
  | noAction => "no_action"
  | advance => "advance"
  | emitAndAdvance => "emit_and_advance"
  | emitAndReset => "emit_and_reset"
  | appendAndAdvance => "append_and_advance"
  | appendAndReset => "append_and_reset"
  | stop => "stop"

/-- The open span becomes a word. -/
def emits : Action → Bool
  | emitAndAdvance | emitAndReset => true
  | _ => false

/-- The open span becomes a part of the numeral list before it, or else a word. -/
def appends : Action → Bool
  | appendAndAdvance | appendAndReset => true
  | _ => false

/-- A new span opens at the character just read. -/
def opensSpan : Action → Bool
  | advance | emitAndAdvance | appendAndAdvance => true
  | _ => false

end Action

/-- The state that follows, and what is done on the way. -/
structure Transition where
  target : State
  action : Action
  deriving DecidableEq, Repr

/-- The built-in table; `none` is the end of the input.

Outside of words every character but a blank opens a span.  Dots and colons extend glyphs, and turn
names into glyphs; a numeral swallows letters and dots unseen, but a colon turns it into a glyph as
well.  Leaving a numeral appends, so that numerals with only blanks between them form one list.
Inside quotes everything is kept, a doubled quote standing for one, and the input must not end. -/
def transition : State → Option CharClass → Transition
  | .initial, c | .whitespace, c => match c with
    | some .other | some .dot | some .colon => ⟨.other, .advance⟩
    | some .whitespace => ⟨.whitespace, .noAction⟩
    | some .letter => ⟨.alphanumeric, .advance⟩
    | some .digit => ⟨.numeric, .advance⟩
    | some .quote => ⟨.quoted, .advance⟩
    | some .lineBreak | none => ⟨.lineBreak, .advance⟩
  | .other, c => match c with
    | some .other => ⟨.other, .emitAndAdvance⟩
    | some .whitespace => ⟨.whitespace, .emitAndReset⟩
    | some .letter => ⟨.alphanumeric, .emitAndAdvance⟩
    | some .digit => ⟨.numeric, .emitAndAdvance⟩
    | some .dot | some .colon => ⟨.other, .noAction⟩
    | some .quote => ⟨.quoted, .emitAndAdvance⟩
    | some .lineBreak | none => ⟨.lineBreak, .emitAndAdvance⟩
  | .alphanumeric, c => match c with
    | some .other => ⟨.other, .emitAndAdvance⟩
    | some .whitespace => ⟨.whitespace, .emitAndReset⟩
    | some .letter | some .digit => ⟨.alphanumeric, .noAction⟩
    | some .dot | some .colon => ⟨.other, .noAction⟩
    | some .quote => ⟨.quoted, .emitAndAdvance⟩
    | some .lineBreak | none => ⟨.lineBreak, .emitAndAdvance⟩
  | .numeric, c => match c with
    | some .other => ⟨.other, .appendAndAdvance⟩
    | some .whitespace => ⟨.whitespace, .appendAndReset⟩
    | some .letter | some .digit | some .dot => ⟨.numeric, .noAction⟩
    | some .colon => ⟨.other, .noAction⟩
    | some .quote => ⟨.quoted, .appendAndAdvance⟩
    | some .lineBreak | none => ⟨.lineBreak, .appendAndAdvance⟩
  | .quoted, c => match c with
    | some .quote => ⟨.doubleQuoted, .noAction⟩
    | some _ => ⟨.quoted, .noAction⟩
    | none => ⟨.lineBreak, .stop⟩
  | .doubleQuoted, c => match c with
    | some .other | some .dot | some .colon => ⟨.other, .emitAndAdvance⟩
    | some .whitespace => ⟨.whitespace, .emitAndReset⟩
    | some .letter => ⟨.alphanumeric, .emitAndAdvance⟩
    | some .digit => ⟨.numeric, .emitAndAdvance⟩
    | some .quote => ⟨.quoted, .noAction⟩
    | some .lineBreak | none => ⟨.lineBreak, .emitAndAdvance⟩
  | .lineBreak, c => match c with
    | some .other | some .dot | some .colon => ⟨.other, .emitAndAdvance⟩
    | some .whitespace => ⟨.whitespace, .emitAndReset⟩
    | some .letter => ⟨.alphanumeric, .emitAndAdvance⟩
    | some .digit => ⟨.numeric, .emitAndAdvance⟩
    | some .quote => ⟨.quoted, .emitAndAdvance⟩
    | some .lineBreak | none => ⟨.lineBreak, .emitAndAdvance⟩

/-! ### Tables -/

/-- A transition table, possibly with gaps. -/
def Table : Type := State → Option CharClass → Option Transition

namespace Table

/-- The built-in table has no gaps. -/
def standard : Table := fun s c => some (transition s c)

/-- The table with one entry replaced or added. -/
def set (t : Table) (s : State) (c : Option CharClass) (next : Transition) : Table :=
  fun s' c' => if s' = s ∧ c' = c then some next else t s' c'

/-- The table with one entry taken out. -/
def erase (t : Table) (s : State) (c : Option CharClass) : Table :=
  fun s' c' => if s' = s ∧ c' = c then none else t s' c'

@[simp] theorem standard_apply (s : State) (c : Option CharClass) :
    standard s c = some (transition s c) := rfl

theorem set_self (t : Table) (s : State) (c : Option CharClass) (next : Transition) :
    t.set s c next s c = some next := by simp [set]

theorem erase_self (t : Table) (s : State) (c : Option CharClass) : t.erase s c s c = none := by
  simp [erase]

end Table

/-- Everything the automaton may be shown in one step, the end of the input last. -/
def inputs : List (Option CharClass) := CharClass.all.map some ++ [none]

theorem mem_inputs (c : Option CharClass) : c ∈ inputs := by
  cases c with
  | none => decide
  | some c => cases c <;> decide

end ArrayCalc.Lexer

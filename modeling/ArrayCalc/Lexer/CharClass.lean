/-!
Character classes.  A source is read one character at a time, and the automaton that cuts it into
words sees of each character only its class.

* `CharClass`: the eight classes;
* `CharClass.ofChar`: the class of a character.  Only ASCII letters and digits count as such; the
  underscore is a digit, since it opens negative numerals; a carriage return is an ordinary glyph.
-/

namespace ArrayCalc.Lexer

/-- What the automaton sees of a character. -/
inductive CharClass where
  | other
  | whitespace
  | letter
  | digit
  | dot
  | colon
  | quote
  | lineBreak
  deriving DecidableEq, Repr

namespace CharClass

/-- The classes in the order in which tables are inspected. -/
def all : List CharClass :=
  [other, whitespace, letter, digit, dot, colon, quote, lineBreak]

theorem mem_all (c : CharClass) : c ∈ all := by cases c <;> decide

/-- The name by which a class is asked for. -/
def name : CharClass → String
  | other => "other"
  | whitespace => "whitespace"
  | letter => "letter"
  | digit => "digit"
  | dot => "dot"
  | colon => "colon"
  | quote => "quote"
  | lineBreak => "line_break"

/-- The name by which a class is reported. -/
def label : CharClass → String
  | other => "InputClass.OTHER"
  | whitespace => "InputClass.WHITESPACE"
  | letter => "InputClass.LETTER"
  | digit => "InputClass.DIGIT"
  | dot => "InputClass.DOT"
  | colon => "InputClass.COLON"
  | quote => "InputClass.QUOTE"
  | lineBreak => "InputClass.LINE_BREAK"

/-- Blanks are the space and the tab, letters and digits the ASCII ones with the underscore among
the digits; whatever has no class of its own is `other`. -/
def ofChar (c : Char) : CharClass :=
  if c = ' ' ∨ c = '\t' then whitespace
  else if c.isAlpha then letter
  else if c.isDigit ∨ c = '_' then digit
  else if c = '.' then dot
  else if c = ':' then colon
  else if c = '\x22' then quote
  else if c = '\n' then lineBreak
  else other

end CharClass

end ArrayCalc.Lexer

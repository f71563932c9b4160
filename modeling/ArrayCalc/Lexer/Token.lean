/-!
Words of a source.

* `TokenKind`: what a word is, with the label that messages print;
* `Token`: a word with its text and its place in the source;
* `unquote`: the text that a quoted word stands for, and `Token.value`.
-/

namespace ArrayCalc.Lexer

/-- What a word is.  Words that no source produces may carry a kind of their own. -/
inductive TokenKind where
  | number
  | name
  | operator
  | string
  | eol
  | unknown (label : String)
  deriving DecidableEq, Repr

namespace TokenKind

/-- The label that messages print. -/
def label : TokenKind → String
  | number => "NUMBER"
  | name => "NAME"
  | operator => "OPERATOR"
  | string => "STRING"
  | eol => "EOL"
  | unknown l => l

/-- The kind with a given label. -/
def ofLabel (l : String) : TokenKind :=
  if l = "NUMBER" then number
  else if l = "NAME" then name
  else if l = "OPERATOR" then operator
  else if l = "STRING" then string
  else if l = "EOL" then eol
  else unknown l

theorem label_ofLabel (l : String) : (ofLabel l).label = l := by
  unfold ofLabel
  repeat' split
  all_goals simp_all [label]

/-- Numerals and names can stand to the left of a verb. -/
def isNoun : TokenKind → Bool
  | number | name => true
  | _ => false

end TokenKind

/-- A word: its kind, its text, the half-open span `[pos, stop)` that it takes up, and, for a
numeral list, the texts of the numerals. -/
structure Token where
  kind : TokenKind
  text : String
  pos : Int
  stop : Int
  parts : List String
  deriving DecidableEq, Repr

/-! ### Quoted words -/

/-- Each doubled quote once, from left to right. -/
def halveQuotes : List Char → List Char
  | '\x22' :: '\x22' :: r => '\x22' :: halveQuotes r
  | c :: r => c :: halveQuotes r
  | [] => []

/-- Each quote twice. -/
def doubleQuotes (s : List Char) : List Char :=
  s.flatMap fun c => if c = '\x22' then ['\x22', '\x22'] else [c]

/-- The text between an opening and a closing quote; a text without both is left as it is. -/
def stripQuotes (s : List Char) : List Char :=
  if 2 ≤ s.length ∧ s.head? = some '\x22' ∧ s.getLast? = some '\x22' then s.tail.dropLast else s

/-- The text that a quoted word stands for. -/
def unquote (text : String) : String :=
  String.ofList (halveQuotes (stripQuotes text.toList))

theorem halveQuotes_doubleQuotes (s : List Char) : halveQuotes (doubleQuotes s) = s := by
  induction s with
  | nil => rfl
  | cons c r ih =>
    have e : doubleQuotes (c :: r) =
        (if c = '\x22' then ['\x22', '\x22'] else [c]) ++ doubleQuotes r := rfl
    rw [e]
    by_cases h : c = '\x22'
    · simp [h, halveQuotes, ih]
    · rw [if_neg h, List.singleton_append, halveQuotes, ih]
      intro r' hc
      exact absurd hc h

/-- What a word says: the contents of a quoted word, the text of any other. -/
def Token.value (t : Token) : String :=
  if t.kind = .string then unquote t.text else t.text

end ArrayCalc.Lexer

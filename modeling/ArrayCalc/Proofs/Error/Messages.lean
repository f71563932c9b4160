import ArrayCalc.Error
import Mathlib.Data.List.Basic
/-!
What errors repeat, and that the rest of their wording stays on its line.

A message is made of fixed words, numbers, quoted texts, and texts that are repeated as they are.
Of these only the last can bring a line end into a message.

* `Text.OneLine`: a text without line feeds and carriage returns, with the pieces of messages that
  are such texts;
* `Error.repeated`: the texts that an error repeats as they are, by its field;
* `Error.oneLine_text`: **what an error says is on one line if all that it repeats is**;
  `Error.oneLine_classified`: and so it is once the error has been told as one that a verb may have.
-/

namespace ArrayCalc

open Lexer Text

/-! ### Texts on one line -/

namespace Text

/-- A text without line feeds and carriage returns. -/
def OneLine (s : String) : Prop := '\n' ∉ s.toList ∧ '\r' ∉ s.toList

instance (s : String) : Decidable (OneLine s) := inferInstanceAs (Decidable (_ ∧ _))

@[simp] lemma oneLine_append {s t : String} : OneLine (s ++ t) ↔ OneLine s ∧ OneLine t := by
  simp only [OneLine, String.toList_append, List.mem_append, not_or]
  exact and_and_and_comm

@[simp] lemma oneLine_quoted (s : String) : OneLine (quoted s) := newline_not_mem_quoted s

@[simp] lemma oneLine_repr (n : Nat) : OneLine n.repr := by
  have hdigit : ∀ c ∈ n.repr.toList, c.isDigit = true := by
    intro c hc
    rw [Nat.repr, String.toList_ofList] at hc
    exact Nat.isDigit_of_mem_toDigits (by decide) (by decide) hc
  exact ⟨fun hc => absurd (hdigit _ hc) (by decide), fun hc => absurd (hdigit _ hc) (by decide)⟩

@[simp] lemma oneLine_int_repr (n : Int) : OneLine n.repr := by
  cases n with
  | ofNat n => exact oneLine_repr n
  | negSucc n => exact oneLine_append.mpr ⟨by decide, oneLine_repr n.succ⟩

lemma oneLine_intercalate {separator : String} {pieces : List String} (hs : OneLine separator)
    (hp : ∀ p ∈ pieces, OneLine p) : OneLine (separator.intercalate pieces) := by
  induction pieces with
  | nil => simp [OneLine]
  | cons p pieces ih =>
    obtain ⟨hhead, htail⟩ := List.forall_mem_cons.mp hp
    cases pieces with
    | nil => exact hhead
    | cons q pieces =>
      rw [String.intercalate_cons_cons, oneLine_append, oneLine_append]
      exact ⟨⟨hhead, hs⟩, ih htail⟩

end Text

namespace Shape

/-- Extents with something between them. -/
lemma oneLine_extents {separator : String} (hs : OneLine separator) (shape : List Int) :
    OneLine (separator.intercalate (shape.map Int.repr)) := by
  refine oneLine_intercalate hs fun p hp => ?_
  obtain ⟨e, -, rfl⟩ := List.mem_map.mp hp
  exact oneLine_int_repr e

@[simp] lemma oneLine_words (shape : List Int) : OneLine (words shape) := by
  unfold words
  split
  · decide
  · exact oneLine_extents (by decide) shape

@[simp] lemma oneLine_tuple (shape : List Int) : OneLine (tuple shape) := by
  unfold tuple
  split
  · simp only [oneLine_append, oneLine_int_repr]
    simp [OneLine]
  · have hextents : OneLine (", ".intercalate (shape.map Int.repr)) :=
      oneLine_extents (by decide) shape
    simp only [oneLine_append, hextents]
    simp [OneLine]

end Shape

/-! ### What errors repeat -/

/-- The label of a kind that no source produces. -/
def Lexer.TokenKind.repeated : TokenKind → List String
  | .unknown label => [label]
  | _ => []

/-- What was reported from outside. -/
def LexError.repeated : LexError → List String
  | .reported m _ _ => [m]
  | _ => []

/-- What was reported from outside. -/
def ShapeError.repeated : ShapeError → List String
  | .reported m _ => [m]
  | _ => []

/-- The names of types, and what was reported from outside. -/
def PromotionError.repeated : PromotionError → List String
  | .nonNumeric storage => [storage]
  | .notNoun _ typeName => [typeName]
  | .reported m => [m]
  | .narrowing _ _ => []

/-- An alarm of the memory, and what was reported from outside. -/
def DomainError.repeated : DomainError → List String
  | .outOfMemory m => [m]
  | .reported m => [m]
  | _ => []

/-- The labels of kinds, and what was reported from outside. -/
def EvaluationError.repeated : EvaluationError → List String
  | .expectedNoun kind _ _ => kind.repeated
  | .nonsensical kind _ _ => kind.repeated
  | .reported m => [m]
  | _ => []

/-- The texts that an error repeats as they are; an alarm also repeats its name. -/
def Error.repeated : Error → List String
  | .lex e => e.repeated
  | .notNumber kind => kind.repeated
  | .unsupported place typeName => [place, typeName]
  | .shape e => e.repeated
  | .promotion e => e.repeated
  | .domain e => e.repeated
  | .evaluation e => e.repeated
  | .runtime m => [m]
  | .alarm a m => [a.name, m]
  | _ => []

/-! ### Messages -/

@[simp] lemma Valence.oneLine_name (v : Valence) : OneLine v.name := by cases v <;> decide

@[simp] lemma Valence.oneLine_title (v : Valence) : OneLine v.title := by cases v <;> decide

@[simp] lemma Kind.oneLine_name (k : Kind) : OneLine k.name := by cases k <;> decide

@[simp] lemma Side.oneLine_name (s : Side) : OneLine s.name := by cases s <;> decide

@[simp] lemma Lexer.State.oneLine_label (s : State) : OneLine s.label := by cases s <;> decide

@[simp] lemma LexError.oneLine_inputLabel (input : Option CharClass) :
    OneLine (inputLabel input) := by
  rcases input with _ | ⟨⟨⟩⟩ <;> decide

lemma Lexer.TokenKind.oneLine_label {kind : TokenKind} (h : ∀ s ∈ kind.repeated, OneLine s) :
    OneLine kind.label := by
  cases kind with
  | unknown label => exact h label (List.mem_singleton_self label)
  | _ => decide

lemma LexError.oneLine_complaint {e : LexError} (h : ∀ s ∈ e.repeated, OneLine s) :
    OneLine e.complaint := by
  unfold complaint
  cases e with
  | reported m _ _ => exact h m (List.mem_singleton_self m)
  | unterminated _ _ => simp [OneLine]
  | _ =>
    simp only [oneLine_append, State.oneLine_label, oneLine_inputLabel]
    simp [OneLine]

lemma LexError.oneLine_message {e : LexError} (h : ∀ s ∈ e.repeated, OneLine s) :
    OneLine e.message := by
  unfold message
  simp only [oneLine_append, oneLine_int_repr, oneLine_complaint h]
  simp [OneLine]

lemma NumeralError.oneLine_message (e : NumeralError) : OneLine e.message := by
  unfold message
  cases e with
  | tooLong n =>
    simp only [oneLine_append, oneLine_repr]
    simp [OneLine]
  | _ =>
    simp only [oneLine_append, oneLine_quoted]
    simp [OneLine]

lemma ShapeError.oneLine_message {e : ShapeError} (h : ∀ s ∈ e.repeated, OneLine s) :
    OneLine e.message := by
  unfold message
  cases e with
  | reported m shapes => exact h m (List.mem_singleton_self m)
  | _ =>
    simp only [oneLine_append, oneLine_repr, Shape.oneLine_words, Shape.oneLine_tuple]
    simp [OneLine]

lemma PromotionError.oneLine_message {e : PromotionError} (h : ∀ s ∈ e.repeated, OneLine s) :
    OneLine e.message := by
  unfold message
  cases e with
  | narrowing a b =>
    simp only [oneLine_append, Kind.oneLine_name]
    simp [OneLine]
  | nonNumeric storage =>
    exact oneLine_append.mpr ⟨by decide, h storage (List.mem_singleton_self storage)⟩
  | notNoun side typeName =>
    simp only [oneLine_append, Side.oneLine_name, h typeName (List.mem_singleton_self typeName)]
    simp [OneLine]
  | reported m => exact h m (List.mem_singleton_self m)

lemma DomainError.oneLine_message {e : DomainError} (h : ∀ s ∈ e.repeated, OneLine s) :
    OneLine e.message := by
  unfold message
  cases e with
  | reported m => exact h m (List.mem_singleton_self m)
  | outOfMemory m => exact oneLine_append.mpr ⟨by decide, h m (List.mem_singleton_self m)⟩
  | fractionalExtents => simp [OneLine]
  | _ =>
    simp only [oneLine_append, oneLine_repr, Shape.oneLine_words, Shape.oneLine_tuple]
    simp [OneLine]

lemma EvaluationError.oneLine_message {e : EvaluationError} (h : ∀ s ∈ e.repeated, OneLine s) :
    OneLine e.message := by
  unfold message
  cases e with
  | reported m => exact h m (List.mem_singleton_self m)
  | expectedNoun kind text pos | nonsensical kind text pos =>
    simp only [oneLine_append, oneLine_quoted, oneLine_int_repr, TokenKind.oneLine_label h]
    simp [OneLine]
  | _ =>
    simp only [oneLine_append, oneLine_quoted, oneLine_int_repr, Valence.oneLine_title]
    simp [OneLine]

namespace Error

/-- The wording of an error is on one line if all that it repeats is. -/
lemma oneLine_message {e : Error} (h : ∀ s ∈ e.repeated, OneLine s) : OneLine e.message := by
  unfold message
  cases e with
  | lex e => exact LexError.oneLine_message h
  | numeral e => exact e.oneLine_message
  | shape e => exact ShapeError.oneLine_message h
  | promotion e => exact PromotionError.oneLine_message h
  | domain e => exact DomainError.oneLine_message h
  | evaluation e => exact EvaluationError.oneLine_message h
  | notNumber kind => exact oneLine_append.mpr ⟨by decide, TokenKind.oneLine_label h⟩
  | unsupported place typeName =>
    obtain ⟨hplace, htype⟩ := List.forall_mem_cons.mp h
    simp only [oneLine_append, hplace, htype typeName (List.mem_singleton_self typeName)]
    simp [OneLine]
  | runtime m => exact h m (List.mem_singleton_self m)
  | alarm a m => exact h m (List.mem_cons_of_mem _ (List.mem_singleton_self m))
  | unbound name => exact oneLine_quoted name
  | unreadable | unrepresentable => simp [OneLine]
  | _ =>
    simp only [oneLine_append, oneLine_quoted, Valence.oneLine_name]
    simp [OneLine]

lemma oneLine_name {e : Error} (h : ∀ s ∈ e.repeated, OneLine s) : OneLine e.name := by
  unfold name
  cases e with
  | alarm a m => exact h a.name List.mem_cons_self
  | _ => simp [Alarm.name, OneLine]

/-- **What an error says is on one line if all that it repeats is.** -/
theorem oneLine_text {e : Error} (h : ∀ s ∈ e.repeated, OneLine s) : OneLine e.text := by
  rw [text]
  split
  · exact oneLine_name h
  · exact oneLine_message h

/-- An error told as one that a verb may have repeats what it said. -/
theorem oneLine_classified {e : Error} (h : OneLine e.text) : OneLine e.classified.text := by
  rw [classified]
  split
  · exact oneLine_text (List.forall_mem_singleton.mpr h)
  · split
    · exact oneLine_text (List.forall_mem_singleton.mpr h)
    · exact oneLine_text (List.forall_mem_singleton.mpr h)

end Error

end ArrayCalc

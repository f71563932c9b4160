import ArrayCalc.Proofs.Lexer.Reading
import Mathlib.Order.Bounds.Defs
import Mathlib.Tactic.ByContra
/-!
Quotations that are left open.

A quote opens a quotation, closes one, or is the second half of a doubled quote.  Which of these it
is can be told without the automaton, from the quotes before it: their number, and whether one of
them stands right before it.

* `OpensQuotation`: a quote that opens a quotation; `openings`: all of those before a place;
* `Machine.Tracks`: what a machine knows of the quotes that it has read: whether a quotation is
  open, whether the last character may have closed one, and where the last one was opened;
  **`Machine.Tracks.next`, `Machine.Tracks.read`: this is kept by one character, and by all of
  them**;
* `tokenize_fails_iff_open`: **a source fails exactly if it has an odd number of quotes**, and then
  with the place of the last quote that opens a quotation.
-/

namespace ArrayCalc.Lexer

variable {source : List Char} {place : Nat} {c : Char} {m : Machine}

/-! ### Quotes that open -/

/-- A quote opens a quotation if every quotation before it is closed and it does not stand right
behind another quote, of which it would be the second half. -/
structure OpensQuotation (source : List Char) (place : Nat) : Prop where
  quote : source[place]? = some '\x22'
  even : (source.take place).count '\x22' % 2 = 0
  apart : place = 0 ∨ source[place - 1]? ≠ some '\x22'

/-- The places before a place where a quotation opens. -/
def openings (source : List Char) (place : Nat) : Set Nat :=
  {p | p < place ∧ OpensQuotation source p}

/-- What opens no quotation is not counted. -/
lemma openings_succ (h : ¬ OpensQuotation source place) :
    openings source (place + 1) = openings source place := by
  ext p
  refine ⟨fun ⟨hlt, hp⟩ => ⟨?_, hp⟩, fun ⟨hlt, hp⟩ => ⟨Nat.lt_succ_of_lt hlt, hp⟩⟩
  have hne : p ≠ place := by
    rintro rfl
    exact h hp
  omega

/-- A quotation that opens just now is the last one to open. -/
lemma isGreatest_openings (h : OpensQuotation source place) :
    IsGreatest (openings source (place + 1)) place :=
  ⟨⟨Nat.lt_succ_self place, h⟩, fun _ hp => Nat.le_of_lt_succ hp.1⟩

/-- A place where a quotation opens is one of the source. -/
lemma openings_length (source : List Char) :
    openings source source.length = {p | OpensQuotation source p} := by
  ext p
  refine ⟨fun hp => hp.2, fun hp => ⟨?_, hp⟩⟩
  obtain ⟨hlt, -⟩ := List.getElem?_eq_some_iff.mp hp.quote
  exact hlt

lemma count_take_succ (hc : source[place]? = some c) :
    (source.take (place + 1)).count '\x22' =
      (source.take place).count '\x22' + if c = '\x22' then 1 else 0 := by
  rw [List.take_add_one, hc, Option.toList_some, List.count_append, List.count_singleton]
  simp only [beq_iff_eq]

/-! ### The states of a quotation -/

namespace State

/-- Inside of a quotation, or right behind a quote that may have closed it. -/
def InQuotes (s : State) : Prop := s = .quoted ∨ s = .doubleQuoted

lemma after_eq_doubleQuoted (s : State) (c : CharClass) :
    s.after c = .doubleQuoted ↔ s = .quoted ∧ c = .quote := by
  cases s <;> cases c <;> decide

/-- Only a quote leads into a quotation. -/
lemma eq_quote_of_inQuotes {s : State} {c : CharClass} (hs : s ≠ .quoted)
    (h : (s.after c).InQuotes) : c = .quote := by
  rcases h with h | h
  · by_contra hc
    exact hs (((after_eq_quoted s c).mp h).mpr hc)
  · exact ((after_eq_doubleQuoted s c).mp h).2

/-- A span that stays in quotes goes on. -/
lemma continues_ne_none {s : State} {c : CharClass} (hs : s.InQuotes)
    (h : (s.after c).InQuotes) : s.continues c ≠ none := by
  rcases hs with rfl | rfl
  · exact fun hends => ne_quoted_of_continues_eq_none hends rfl
  · rw [eq_quote_of_inQuotes (by decide) h]
    exact Option.some_ne_none _

/-- Outside of quotations a quote opens a span. -/
lemma continues_quote {s : State} (hs : ¬ s.InQuotes) : s.continues .quote = none := by
  cases s with
  | quoted => exact absurd (.inl rfl) hs
  | doubleQuoted => exact absurd (.inr rfl) hs
  | _ => rfl

end State

/-! ### What a machine knows of quotes -/

namespace Machine

/-- What a machine knows of the quotes before a place.  A quotation is open after an odd number of
them; after an even number, a quote just read may have closed one; and in both of these cases the
open span starts where the last quotation opened. -/
structure Tracks (source : List Char) (place : Nat) (m : Machine) : Prop where
  quoted : m.state = .quoted ↔ (source.take place).count '\x22' % 2 = 1
  closed : m.state = .doubleQuoted ↔
    (source.take place).count '\x22' % 2 = 0 ∧ place ≠ 0 ∧ source[place - 1]? = some '\x22'
  start : m.state.InQuotes → IsGreatest (openings source place) m.start

lemma tracks_initial (source : List Char) : Tracks source 0 .initial := by
  refine ⟨by simp [initial], by simp [initial], ?_⟩
  rintro (h | h) <;> cases h

namespace Tracks

/-- Within quotes no other quotation opens. -/
lemma not_opensQuotation (h : m.Tracks source place) (hm : m.state.InQuotes) :
    ¬ OpensQuotation source place := by
  intro hopens
  rcases hm with hm | hm
  · have hodd := h.quoted.mp hm
    have heven := hopens.even
    omega
  · obtain ⟨-, hplace, hbefore⟩ := h.closed.mp hm
    exact hopens.apart.elim hplace fun hne => hne hbefore

/-- Outside of them every quote opens one. -/
lemma opensQuotation (h : m.Tracks source place) (hm : ¬ m.state.InQuotes)
    (hc : source[place]? = some '\x22') : OpensQuotation source place := by
  have heven : (source.take place).count '\x22' % 2 = 0 := by
    have hodd := mt h.quoted.mpr fun hq => hm (.inl hq)
    omega
  have hclosed := mt h.closed.mpr fun hq => hm (.inr hq)
  refine ⟨hc, heven, ?_⟩
  by_contra hapart
  rw [not_or, not_not] at hapart
  exact hclosed ⟨heven, hapart⟩

/-- **One character more.** -/
theorem next (h : m.Tracks source place) (hc : source[place]? = some c) :
    (m.next source place (.ofChar c)).Tracks source (place + 1) := by
  have hquote : CharClass.ofChar c = .quote ↔ c = '\x22' := CharClass.ofChar_eq_iff
  have hcount := count_take_succ hc
  refine ⟨?_, ?_, fun hs => ?_⟩
  · rw [state_next, State.after_eq_quoted, h.quoted, Ne, hquote, hcount]
    by_cases hq : c = '\x22' <;> simp [hq]
    omega
  · rw [state_next, State.after_eq_doubleQuoted, h.quoted, hquote, hcount, Nat.add_sub_cancel, hc]
    by_cases hq : c = '\x22' <;> simp [hq]
    omega
  · rw [state_next] at hs
    by_cases hm : m.state.InQuotes
    · obtain ⟨s, hgoes⟩ := Option.ne_none_iff_exists'.mp (State.continues_ne_none hm hs)
      rw [openings_succ (h.not_opensQuotation hm), Machine.next, hgoes]
      exact h.start hm
    · have hopen := State.eq_quote_of_inQuotes (fun hq => hm (.inl hq)) hs
      rw [hopen, Machine.next, State.continues_quote hm]
      exact isGreatest_openings (h.opensQuotation hm (hquote.mp hopen ▸ hc))

/-- **All characters.** -/
theorem read {i : Nat} {rest : List Char} (h : m.Tracks source i) (hrest : source.drop i = rest) :
    (m.read source i rest).Tracks source (i + rest.length) := by
  induction rest generalizing i m with
  | nil => exact h
  | cons c rest ih =>
    have hc : source[i]? = some c := by
      rw [← List.head?_drop, hrest, List.head?_cons]
    have htail : source.drop (i + 1) = rest := by
      rw [← List.tail_drop, hrest, List.tail_cons]
    rw [Machine.read, List.length_cons, Nat.add_comm rest.length, ← Nat.add_assoc]
    exact ih (h.next hc) htail

end Tracks

end Machine

/-! ### Sources -/

/-- **Quotations that are left open.**  A source cannot be cut into words exactly if it has an odd
number of quotes.  The failure then spans the source from the last quote that opens a quotation,
which is never one half of a doubled quote, up to its end. -/
theorem tokenize_fails_iff_open (source : String) :
    ((∃ e, tokenize source = .error e) ↔ source.toList.count '\x22' % 2 = 1) ∧
    ∀ e, tokenize source = .error e →
      ∃ p, e = .unterminated p source.length ∧
        IsGreatest {p | OpensQuotation source.toList p} p := by
  have hread := (Machine.tracks_initial source.toList).read (List.drop_zero)
  rw [Nat.zero_add] at hread
  have hodd := hread.quoted
  have hstart := fun hq => hread.start (.inl hq)
  rw [List.take_length] at hodd
  rw [openings_length] at hstart
  rw [tokenize_eq]
  dsimp only
  by_cases hq : (Machine.read source.toList 0 source.toList .initial).state = .quoted
  · rw [if_pos hq]
    refine ⟨⟨fun _ => hodd.mp hq, fun _ => ⟨_, rfl⟩⟩, ?_⟩
    rintro _ ⟨⟩
    exact ⟨_, by rw [String.length_toList], hstart hq⟩
  · rw [if_neg hq]
    refine ⟨⟨?_, fun h => absurd (hodd.mpr h) hq⟩, ?_⟩
    · rintro ⟨e, ⟨⟩⟩
    · rintro e ⟨⟩

/-- Two quotations, the first one with a doubled quote in the middle and the second one with one at
its end, so that it is left open: it opens with the fifth of seven quotes. -/
theorem fails_open_doubled :
    tokenize "\x22a\x22\x22b\x22 \x22c\x22\x22" = .error (.unterminated 7 11) ∧
    ∃ p, LexError.unterminated 7 11 = .unterminated p 11 ∧
      IsGreatest {p | OpensQuotation "\x22a\x22\x22b\x22 \x22c\x22\x22".toList p} p := by
  have h : tokenize "\x22a\x22\x22b\x22 \x22c\x22\x22" = .error (.unterminated 7 11) := rfl
  exact ⟨h, (tokenize_fails_iff_open _).2 _ h⟩

end ArrayCalc.Lexer

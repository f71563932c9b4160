import ArrayCalc.Proofs.Display.Elements
import ArrayCalc.Proofs.Lexer.Numerals
/-!
Rows of elements.

* `Noun.texts`: the elements of a noun as they are displayed;
* `Display.columns`: texts side by side in columns of some width; `Display.row`: those of the
  smallest width; `Noun.display_eq_row`: a noun with no more than one axis is displayed as a row;
* `exists_joined_columns`: **columns are a list of words with blanks before and between them**;
  `tokenize_columns`, `Noun.tokenize_display`: so they are read as one word, whose parts are the
  texts.
-/

namespace ArrayCalc

open Lexer

namespace Noun

/-- The elements as they are displayed. -/
def texts (n : Noun) : List (List Char) := n.elements.map Element.text

lemma texts_eq (n : Noun) : n.texts = n.value.data.map (Display.element n.kind) := by
  rw [texts, elements, List.map_map]
  rfl

end Noun

namespace Display

/-- Texts side by side in columns of some width. -/
def columns (w : Nat) (texts : List (List Char)) : List Char :=
  [' '].intercalate (texts.map (flushRight w))

lemma columns_singleton (w : Nat) (t : List Char) : columns w [t] = flushRight w t :=
  List.intercalate_singleton

lemma columns_cons_cons (w : Nat) (t u : List Char) (texts : List (List Char)) :
    columns w (t :: u :: texts) = flushRight w t ++ ' ' :: columns w (u :: texts) := by
  rw [columns, List.map_cons, List.map_cons, List.intercalate_cons_cons, List.append_assoc]
  rfl

/-- Texts side by side in columns of one width. -/
def row (texts : List (List Char)) : List Char :=
  [' '].intercalate (texts.map (flushRight (width texts)))

/-- A text alone fills its column. -/
@[simp] lemma row_singleton (t : List Char) : row [t] = t := by
  simp [row, width, flushRight]

end Display

/-- A noun with no more than one axis is displayed as a row. -/
lemma Noun.display_eq_row {n : Noun} (h : n.rank ≤ 1) :
    n.display = String.ofList (Display.row n.texts) := by
  rw [texts_eq, display]
  obtain ⟨k, v⟩ := n
  cases v with
  | atom x =>
    change String.ofList (Display.element k x) = String.ofList (Display.row [Display.element k x])
    rw [Display.row_singleton]
  | array a =>
    obtain ⟨shape, data, hfills⟩ := a
    change shape.length ≤ 1 at h
    change String.ofList (Display.array shape (data.map (Display.element k))) =
      String.ofList (Display.row (data.map (Display.element k)))
    match shape, data with
    | [], [x] =>
      rw [List.map_singleton, Display.row_singleton]
      exact congrArg String.ofList (List.append_nil _)
    | [e], data => rfl

/-! ### Rows as words -/

/-- **Columns of any width are words with blanks before and between them.** -/
lemma exists_joined_columns (w : ℕ) {texts : List (List Char)} (h : texts ≠ []) :
    ∃ lead s, AreBlanks lead ∧ JoinedByBlanks (texts.map String.ofList) s ∧
      Display.columns w texts = lead ++ s := by
  have hblanks (k : ℕ) : AreBlanks (List.replicate k ' ') := by
    intro c hc
    rw [List.eq_of_mem_replicate hc]
    rfl
  induction texts with
  | nil => exact absurd rfl h
  | cons t texts ih =>
    have hone := JoinedByBlanks.one (String.ofList t)
    cases texts with
    | nil =>
      rw [String.toList_ofList] at hone
      exact ⟨_, t, hblanks (w - t.length), hone, Display.columns_singleton w t⟩
    | cons u texts =>
      obtain ⟨lead, s, hlead, hs, hrow⟩ := ih (List.cons_ne_nil u texts)
      have hgap : AreBlanks (' ' :: lead) := by
        rintro c hc
        rcases List.mem_cons.1 hc with rfl | hc
        · rfl
        · exact hlead c hc
      have hcons := hs.cons (String.ofList t) (List.cons_ne_nil ' ' lead) hgap
      rw [String.toList_ofList] at hcons
      refine ⟨_, _, hblanks (w - t.length), hcons, ?_⟩
      rw [Display.columns_cons_cons, hrow, Display.flushRight]
      simp only [List.append_assoc, List.cons_append]

/-- Numerals in columns are one word. -/
lemma tokenize_columns (w : ℕ) {texts : List (List Char)} (h : texts ≠ [])
    (hnumerals : ∀ t ∈ texts, IsNumeral t) :
    ∃ t e, tokenize (String.ofList (Display.columns w texts)) = .ok [t, e] ∧ t.kind = .number ∧
      t.parts = texts.map String.ofList ∧ e.kind = .eol := by
  obtain ⟨lead, s, hlead, hs, hrow⟩ := exists_joined_columns w h
  have hparts : ∀ p ∈ texts.map String.ofList, IsNumeral p.toList := by
    intro p hp
    obtain ⟨t, ht, rfl⟩ := List.mem_map.1 hp
    rw [String.toList_ofList]
    exact hnumerals t ht
  have htokens := tokenize_numerals hs hparts hlead (List.forall_mem_nil _)
  rw [List.append_nil] at htokens
  rw [hrow, htokens]
  exact ⟨_, _, rfl, rfl, rfl, rfl⟩

lemma Noun.isNumeral_of_mem_texts {n : Noun} {t : List Char} (ht : t ∈ n.texts) : IsNumeral t := by
  obtain ⟨e, -, rfl⟩ := List.mem_map.mp ht
  exact e.isNumeral_text

/-- A noun with no more than one axis, but with elements, is displayed as one word. -/
lemma Noun.tokenize_display {n : Noun} (hrank : n.rank ≤ 1) (hne : n.elements ≠ []) :
    ∃ t e, tokenize n.display = .ok [t, e] ∧ t.kind = .number ∧
      t.parts = n.texts.map String.ofList ∧ e.kind = .eol := by
  have hne' : n.texts ≠ [] := by simpa [texts] using hne
  rw [display_eq_row hrank]
  exact tokenize_columns (Display.width n.texts) hne' fun t => isNumeral_of_mem_texts

end ArrayCalc

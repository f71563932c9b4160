import ArrayCalc.Proofs.Lexer.Layout
/-!
The words of a source tile it.

* `Tiles`: words in order, none over another, each with the text between its two places, and only
  blanks outside of them;
* `NumeralList.joined`: a list of numerals is its numerals with blanks between them;
* **`tokenize_tiles`: the words of every source tile it.**
-/

namespace ArrayCalc.Lexer

variable {source : List Char}

/-- Words that make up a source, without loss and without overlap. -/
structure Tiles (source : List Char) (words : List Token) : Prop where
  /-- Every word lies inside of the source. -/
  inside : ∀ t ∈ words, 0 ≤ t.pos ∧ t.pos ≤ t.stop ∧ t.stop ≤ source.length
  /-- A word ends before the words after it start. -/
  ordered : words.Pairwise fun s t => s.stop ≤ t.pos
  /-- The text of a word is what stands between its two places. -/
  text : ∀ t ∈ words, t.text = String.ofList (slice source t.pos.toNat t.stop.toNat)
  /-- No word but the last one is empty. -/
  nonempty : ∀ t ∈ words.dropLast, t.pos < t.stop ∧ t.text ≠ ""
  /-- The last word is the line end that stands where the source ends. -/
  last : words.getLast? = some ⟨.eol, "", source.length, source.length, []⟩
  /-- A character that is in none of the words is a blank. -/
  gaps : ∀ (i : Nat) (c : Char), source[i]? = some c →
    (∀ t ∈ words, ¬ (t.pos ≤ i ∧ i < t.stop)) → isBlank c = true
  /-- A list of numerals consists of its numerals with blanks between them. -/
  numerals : ∀ t ∈ words, t.kind = .number → JoinedByBlanks t.parts t.text.toList

/-! ### What the layout says -/

lemma NumeralList.joined {start stop : Nat} {parts : List String}
    (h : NumeralList source start stop parts) :
    JoinedByBlanks parts (slice source start stop) := by
  induction h with
  | @one stop _ =>
    have hone := JoinedByBlanks.one (String.ofList (slice source start stop))
    rwa [String.toList_ofList] at hone
  | @more parts mid next stop hl hgap hbl hn ih =>
    have hmid := hl.lt
    have hstop := hn.lt
    obtain ⟨c, hc, -⟩ := hn.exists_digit
    obtain ⟨hnext, -⟩ := List.getElem?_eq_some_iff.mp hc
    have hne := slice_ne_nil hgap (Nat.le_of_lt hnext)
    have hmore := JoinedByBlanks.more (String.ofList (slice source next stop)) ih hne hbl
    rwa [String.toList_ofList, slice_append_slice (by omega) (by omega),
      slice_append_slice (by omega) (by omega)] at hmore

/-! ### The words of a source -/

/-- **The words of a source tile it**: they come in order and do not overlap, each has the text
between its two places, only the last one is empty, and everything else is blank. -/
theorem tokenize_tiles (source : String) (words : List Token)
    (h : tokenize source = .ok words) : Tiles source.toList words := by
  obtain ⟨ws, hl, rfl⟩ := exists_laid_of_tokenize_ok h
  refine ⟨?inside, hl.ordered_wordsOf, ?text, ?nonempty, ?last,
    fun i c => hl.isBlank_of_outside_wordsOf, ?numerals⟩
  case inside =>
    intro t ht
    rcases hl.of_mem_wordsOf ht with ⟨start, stop, hw, hstop⟩ | rfl
    · have hlt := hw.lt
      rw [hw.place.1, hw.place.2]
      omega
    · exact ⟨Int.natCast_nonneg _, Int.le_refl _, Int.le_refl _⟩
  case text =>
    intro t ht
    rcases hl.of_mem_wordsOf ht with ⟨start, stop, hw, -⟩ | rfl
    · rw [← hw.toList_text, String.ofList_toList]
    · rfl
  case nonempty =>
    intro t ht
    obtain ⟨start, stop, hw, hstop⟩ := hl.exists_wordAt (mem_dropLast_wordsOf.mp ht)
    have hlt := hw.lt
    have htext := hw.toList_text
    rw [hw.place.1, hw.place.2] at htext ⊢
    refine ⟨Int.ofNat_lt.mpr hlt, ?_⟩
    rw [Ne, ← String.toList_eq_nil_iff, htext]
    exact slice_ne_nil hlt hstop
  case last =>
    rw [getLast?_wordsOf, wordAt, slice, Nat.sub_self, List.take_zero]
    rfl
  case numerals =>
    intro t ht hk
    rcases hl.of_mem_wordsOf ht with ⟨start, stop, hw, -⟩ | rfl
    · rw [hw.toList_text]
      exact (hw.numeralList hk).joined
    · cases hk

/-- A name that a list of two numerals is assigned to, with a tab and spaces around them. -/
theorem tiles_assignment_of_list :
    tokenize "\tx=: 1  2 " = .ok [⟨.name, "x", 1, 2, []⟩, ⟨.operator, "=:", 2, 4, []⟩,
      ⟨.number, "1  2", 5, 9, ["1", "2"]⟩, ⟨.eol, "", 10, 10, []⟩] ∧
    Tiles "\tx=: 1  2 ".toList [⟨.name, "x", 1, 2, []⟩, ⟨.operator, "=:", 2, 4, []⟩,
      ⟨.number, "1  2", 5, 9, ["1", "2"]⟩, ⟨.eol, "", 10, 10, []⟩] :=
  ⟨rfl, tokenize_tiles _ _ rfl⟩

end ArrayCalc.Lexer

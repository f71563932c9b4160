import ArrayCalc.Proofs.Lexer.Numerals
/-!
The words of a text of several lines.

* `Token.later`: a word that stands some places later; `SameWord`: two words that differ in nothing
  but their places and the blanks in a list of numerals;
* `Machine.read_append_source`: what is read does not depend on what comes behind it;
* `Machine.Mirrors`: two machines in step, the second one over a source with more in front:
  **`Machine.Mirrors.next`, `Machine.Mirrors.read`: they stay in step**, and
  `Machine.Mirrors.close`: the words of the second one are those of the first one, later;
* `Machine.read_lineBreak`: a line starts like a source; `Machine.read_separated`: what is read
  before and after a character that ends the open span;
* `tokenize_append_line`: **the words of two lines** are those of the first one, a line end, and
  those of the second one, later;
* `IsBlankText`: spaces, tabs and line feeds; `forall_eol_iff`: the words of a source are nothing
  but line ends exactly if the source is nothing but these.
-/

namespace ArrayCalc.Lexer

/-- Outside of quotes a line feed ends the open span. -/
lemma State.continues_lineBreak {s : State} (h : s ≠ .quoted) : s.continues .lineBreak = none := by
  cases s with
  | quoted => exact absurd rfl h
  | _ => rfl

/-- A word that stands `n` places later. -/
def Token.later (n : Nat) (t : Token) : Token := { t with pos := t.pos + n, stop := t.stop + n }

@[simp] lemma Token.kind_later (n : Nat) (t : Token) : (t.later n).kind = t.kind := rfl

/-- Two words of one kind with the same text, or the same numerals if they are lists of those. -/
structure SameWord (t t' : Token) : Prop where
  kind : t'.kind = t.kind
  parts : t.kind = .number → t'.parts = t.parts
  text : t.kind ≠ .number → t'.text = t.text

lemma SameWord.text_of_kind {t t' : Token} (h : SameWord t t') {kind : TokenKind}
    (hk : t.kind = kind) (hkind : kind ≠ .number) : t'.text = t.text := h.text (hk ▸ hkind)

lemma sameWord_of_later {n : Nat} {t t' : Token} (h : t' = t.later n) : SameWord t t' := by
  subst h
  exact ⟨rfl, fun _ => rfl, fun _ => rfl⟩

/-! ### A source with more behind it -/

section Behind

variable (s behind : List Char) {stop : Nat}

lemma slice_append_of_le (start : Nat) (h : stop ≤ s.length) :
    slice (s ++ behind) start stop = slice s start stop := by
  by_cases hstart : start ≤ s.length
  · rw [slice, slice, List.drop_append_of_le_length hstart, List.take_append_of_le_length]
    rw [List.length_drop]
    omega
  · have hzero : stop - start = 0 := by omega
    rw [slice, slice, hzero, List.take_zero, List.take_zero]

lemma wordAt_append_of_le (start : Nat) (h : stop ≤ s.length) (kind : TokenKind) :
    wordAt (s ++ behind) start stop kind = wordAt s start stop kind := by
  rw [wordAt, wordAt, slice_append_of_le s behind start h]

namespace Machine

lemma close_append_of_le (m : Machine) (h : stop ≤ s.length) :
    m.close (s ++ behind) stop = m.close s stop := by
  have hnumeral : ∀ words, addNumeral (s ++ behind) m.start stop words =
      addNumeral s m.start stop words := by
    intro words
    cases words with
    | nil => rw [addNumeral, addNumeral, wordAt_append_of_le s behind _ h]
    | cons last words =>
      rw [addNumeral, addNumeral, wordAt_append_of_le s behind _ h, Token.extend, Token.extend,
        slice_append_of_le s behind _ h, slice_append_of_le s behind _ h]
  rw [close, close]
  split
  · rfl
  · exact hnumeral m.words
  · rw [wordAt_append_of_le s behind _ h]

/-- What is read does not depend on what comes behind it. -/
lemma read_append_source (i : Nat) (rest : List Char) (m : Machine)
    (h : i + rest.length ≤ s.length) :
    m.read (s ++ behind) i rest = m.read s i rest := by
  induction rest generalizing i m with
  | nil => rfl
  | cons c rest ih =>
    rw [List.length_cons] at h
    have hnext : m.next (s ++ behind) i (.ofChar c) = m.next s i (.ofChar c) := by
      rw [next, next, close_append_of_le s behind m (by omega)]
    rw [read, read, hnext, ih (i + 1) _ (by omega)]

end Machine

end Behind

/-! ### A source with more in front of it -/

section Front

variable (front s : List Char)

lemma slice_append_later (start stop : Nat) :
    slice (front ++ s) (front.length + start) (front.length + stop) = slice s start stop := by
  rw [slice, slice, List.drop_length_add_append, Nat.add_sub_add_left]

lemma wordAt_append_later (start stop : Nat) (kind : TokenKind) :
    wordAt (front ++ s) (front.length + start) (front.length + stop) kind =
      (wordAt s start stop kind).later front.length := by
  have hplace : ∀ i : Nat, ((front.length + i : Nat) : Int) = i + front.length := by
    intro i
    omega
  simp only [wordAt, Token.later, slice_append_later, hplace]

lemma extend_append_later {t : Token} (ht : 0 ≤ t.pos) (start stop : Nat) :
    (t.later front.length).extend (front ++ s) (front.length + start) (front.length + stop) =
      (t.extend s start stop).later front.length := by
  have hpos : (t.pos + front.length).toNat = front.length + t.pos.toNat := by omega
  have hstop : ((front.length + stop : Nat) : Int) = stop + front.length := by omega
  simp only [Token.extend, Token.later, hpos, hstop, slice_append_later]

end Front

/-- Where there is no list of numerals to join, a numeral is a word of its own. -/
lemma addNumeral_of_head_ne {source : List Char} {words : List Token}
    (h : ∀ t ∈ words.head?, t.kind ≠ .number) (start stop : Nat) :
    addNumeral source start stop words = wordAt source start stop .number :: words := by
  cases words with
  | nil => rfl
  | cons last words => rw [addNumeral, if_neg (h last rfl)]

namespace Machine

/-- The second machine does over a longer source what the first one does: it is in the same state,
its span opens as many places later, and its words are those of the first one, later, on top of the
words from the front. -/
structure Mirrors (n : Nat) (base : List Token) (m m' : Machine) : Prop where
  state : m'.state = m.state
  start : m.state.tokenKind ≠ none → m'.start = n + m.start
  words : m'.words = m.words.map (Token.later n) ++ base
  placed : ∀ t ∈ m.words, 0 ≤ t.pos

namespace Mirrors

variable {front s : List Char} {base : List Token} {m m' : Machine}

/-- A numeral that ends joins a list of its own side only. -/
lemma addNumeral {words : List Token} (hwords : ∀ t ∈ words, 0 ≤ t.pos)
    (hbase : ∀ t ∈ base.head?, t.kind ≠ .number) (start stop : Nat) :
    Lexer.addNumeral (front ++ s) (front.length + start) (front.length + stop)
        (words.map (Token.later front.length) ++ base) =
      (Lexer.addNumeral s start stop words).map (Token.later front.length) ++ base := by
  cases words with
  | nil =>
    show Lexer.addNumeral _ _ _ base = _
    rw [addNumeral_of_head_ne hbase, wordAt_append_later]
    rfl
  | cons t words =>
    have ht := hwords t List.mem_cons_self
    rw [List.map_cons, List.cons_append, Lexer.addNumeral, Lexer.addNumeral, Token.kind_later]
    split
    · rw [extend_append_later front s ht]
      rfl
    · rw [wordAt_append_later]
      rfl

/-- Once the open spans have ended, the words are the same but for their places. -/
lemma close (h : m.Mirrors front.length base m') (hbase : ∀ t ∈ base.head?, t.kind ≠ .number)
    (stop : Nat) :
    m'.close (front ++ s) (front.length + stop) =
      (m.close s stop).map (Token.later front.length) ++ base := by
  rw [Machine.close, Machine.close, h.state]
  split
  · exact h.words
  · rename_i hk
    rw [h.words, h.start (by rw [hk]; exact Option.some_ne_none _), addNumeral h.placed hbase]
  · rename_i kind _ hk
    rw [h.words, h.start (by rw [hk]; exact Option.some_ne_none _), wordAt_append_later]
    rfl

end Mirrors

/-- No word starts before the source. -/
lemma nonneg_pos_of_mem_close {m : Machine} {source : List Char} {stop : Nat}
    (h : ∀ t ∈ m.words, 0 ≤ t.pos) : ∀ t ∈ m.close source stop, 0 ≤ t.pos := by
  have hword : ∀ kind, 0 ≤ (wordAt source m.start stop kind).pos :=
    fun kind => Int.natCast_nonneg m.start
  rw [close]
  split
  · exact h
  · cases hwords : m.words with
    | nil => exact List.forall_mem_singleton.mpr (hword .number)
    | cons last words =>
      rw [hwords] at h
      obtain ⟨hlast, hrest⟩ := List.forall_mem_cons.mp h
      rw [Lexer.addNumeral]
      split
      · exact List.forall_mem_cons.mpr ⟨hlast, hrest⟩
      · exact List.forall_mem_cons.mpr ⟨hword .number, h⟩
  · exact List.forall_mem_cons.mpr ⟨hword _, h⟩

namespace Mirrors

variable {front s : List Char} {base : List Token} {m m' : Machine}

/-- **One character keeps the machines in step.** -/
theorem next (h : m.Mirrors front.length base m') (hbase : ∀ t ∈ base.head?, t.kind ≠ .number)
    (i : Nat) (c : CharClass) :
    (m.next s i c).Mirrors front.length base (m'.next (front ++ s) (front.length + i) c) := by
  rw [Machine.next, Machine.next, h.state]
  cases hcont : m.state.continues c with
  | some state =>
    -- only inside of a word is there something to go on with
    have hinside : m.state.tokenKind ≠ none := by
      intro hnone
      rw [State.continues_of_tokenKind_eq_none hnone] at hcont
      cases hcont
    exact ⟨rfl, fun _ => h.start hinside, h.words, h.placed⟩
  | none =>
    refine ⟨rfl, fun hkind => ?_, h.close hbase i, nonneg_pos_of_mem_close h.placed⟩
    have hc : c ≠ .whitespace := by
      rintro rfl
      exact hkind rfl
    simp only [hc, if_false]

/-- **So does all that is read.** -/
theorem read (h : m.Mirrors front.length base m') (hbase : ∀ t ∈ base.head?, t.kind ≠ .number)
    (i : Nat) (rest : List Char) :
    (m.read s i rest).Mirrors front.length base
      (m'.read (front ++ s) (front.length + i) rest) := by
  induction rest generalizing i m m' with
  | nil => exact h
  | cons c rest ih => exact ih (h.next hbase i (.ofChar c)) (i + 1)

end Mirrors

/-- A line starts like a source: the line end before it is a word like any other, even if nothing
follows. -/
lemma read_lineBreak (source : List Char) (start i : Nat) (words : List Token)
    (rest : List Char) :
    let m := (⟨.lineBreak, start, words⟩ : Machine).read source i rest
    let m' := (⟨.initial, start, wordAt source start i .eol :: words⟩ : Machine).read source i rest
    (m.state = .quoted ↔ m'.state = .quoted) ∧ m.start = m'.start ∧
      m.close source (i + rest.length) = m'.close source (i + rest.length) := by
  cases rest with
  | nil => exact ⟨by simp [read], rfl, rfl⟩
  | cons c rest =>
    have hnext : (⟨.lineBreak, start, words⟩ : Machine).next source i (.ofChar c) =
        (⟨.initial, start, wordAt source start i .eol :: words⟩ : Machine).next source i
          (.ofChar c) := by
      cases CharClass.ofChar c <;> rfl
    dsimp only
    rw [read, hnext, read]
    exact ⟨Iff.rfl, rfl, rfl⟩

/-- A character that ends the open span parts what is read before it from what is read after it. -/
lemma read_separated (a b : List Char) {c : Char}
    (hends : (Machine.initial.read a 0 a).state.continues (.ofChar c) = none) :
    Machine.initial.read (a ++ [c] ++ b) 0 (a ++ [c] ++ b) =
      (⟨(CharClass.ofChar c).opens,
        if CharClass.ofChar c = .whitespace then (Machine.initial.read a 0 a).start else a.length,
        (Machine.initial.read a 0 a).close a a.length⟩ : Machine).read
        (a ++ [c] ++ b) (a ++ [c]).length b := by
  have hsource : a ++ [c] ++ b = a ++ ([c] ++ b) := List.append_assoc a [c] b
  have hfirst : Machine.initial.read (a ++ [c] ++ b) 0 a = Machine.initial.read a 0 a := by
    rw [hsource, read_append_source _ _ _ _ _ (Nat.le_of_eq (Nat.zero_add _))]
  rw [read_append 0 (a ++ [c]) b, read_append 0 a [c], hfirst, Nat.zero_add, Nat.zero_add, read,
    read, next, hends]
  dsimp only
  rw [hsource, close_append_of_le _ _ _ (Nat.le_refl _)]

end Machine

/-! ### The words of two lines -/

/-- A source has words exactly if no quote is open at its end. -/
lemma tokenize_eq_ok_iff {text : String} {ts : List Token} :
    tokenize text = .ok ts ↔
      (Machine.initial.read text.toList 0 text.toList).state ≠ .quoted ∧
      ts = wordsOf text.toList
        ((Machine.initial.read text.toList 0 text.toList).close text.toList text.toList.length) := by
  rw [tokenize_eq]
  dsimp only
  split
  · rename_i hq
    simp [hq]
  · rename_i hq
    rw [wordsOf, ← List.reverse_cons, Except.ok.injEq, eq_comm]
    exact (and_iff_right hq).symm

/-- The line end that takes up one place. -/
def lineEndAt (place : Nat) : Token := ⟨.eol, "\n", place, (place + 1 : Nat), []⟩

lemma wordAt_lineEnd (s t : List Char) :
    wordAt (s ++ ['\n'] ++ t) s.length (s ++ ['\n']).length .eol = lineEndAt s.length := by
  have hslice : slice (s ++ ['\n'] ++ t) s.length (s ++ ['\n']).length = ['\n'] := by
    rw [List.length_append, slice_append_append]
  rw [wordAt, hslice, List.length_append]
  rfl

/-- Two lines read one after the other: the quotes of the second one decide whether one is open and
where, and its words come on top of those of the first one and the line end. -/
lemma Machine.read_two_lines {s t : List Char}
    (hs : (Machine.initial.read s 0 s).state ≠ .quoted) :
    let m := Machine.initial.read (s ++ ['\n'] ++ t) 0 (s ++ ['\n'] ++ t)
    let m' := Machine.initial.read t 0 t
    (m.state = .quoted ↔ m'.state = .quoted) ∧
      (m'.state = .quoted → m.start = (s ++ ['\n']).length + m'.start) ∧
      m.close (s ++ ['\n'] ++ t) ((s ++ ['\n']).length + t.length) =
        (m'.close t t.length).map (Token.later (s ++ ['\n']).length) ++
          lineEndAt s.length :: (Machine.initial.read s 0 s).close s s.length := by
  have hread := read_separated s t (c := '\n') (State.continues_lineBreak hs)
  dsimp only
  rw [hread]
  generalize (Machine.initial.read s 0 s).close s s.length = words
  obtain ⟨hstate, hopen, hclose⟩ :=
    read_lineBreak (s ++ ['\n'] ++ t) s.length (s ++ ['\n']).length words t
  rw [wordAt_lineEnd] at hstate hopen hclose
  -- behind the line end the machine is in step with one that starts at the second line
  have hstart : Machine.initial.Mirrors (s ++ ['\n']).length (lineEndAt s.length :: words)
      ⟨.initial, s.length, lineEndAt s.length :: words⟩ :=
    ⟨rfl, fun h => absurd rfl h, rfl, List.forall_mem_nil _⟩
  have hbase : ∀ e ∈ (lineEndAt s.length :: words).head?, e.kind ≠ .number := by
    rintro e ⟨⟩ ⟨⟩
  have hmirrors := hstart.read (s := t) hbase 0 t
  rw [Nat.add_zero] at hmirrors
  refine ⟨hstate.trans (by rw [hmirrors.state]), fun hq => hopen.trans (hmirrors.start ?_),
    hclose.trans (hmirrors.close hbase _)⟩
  rw [hq]
  exact Option.some_ne_none _

/-- **The words of two lines**: those of the first one without the end of its source, the line end
between the two, and those of the second one, as many places later. -/
theorem tokenize_append_line {a b : String} {as bs : List Token} (ha : tokenize a = .ok as)
    (hb : tokenize b = .ok bs) :
    tokenize (a ++ "\n" ++ b) =
      .ok (as.dropLast ++ lineEndAt a.length :: bs.map (Token.later (a.length + 1))) := by
  obtain ⟨hqa, rfl⟩ := tokenize_eq_ok_iff.mp ha
  obtain ⟨hqb, rfl⟩ := tokenize_eq_ok_iff.mp hb
  have hsource : (a ++ "\n" ++ b).toList = a.toList ++ ['\n'] ++ b.toList := by
    rw [String.toList_append, String.toList_append]
    rfl
  have hlength : (a.toList ++ ['\n'] ++ b.toList).length =
      (a.toList ++ ['\n']).length + b.toList.length := List.length_append
  obtain ⟨hstate, -, hclose⟩ := @Machine.read_two_lines a.toList b.toList hqa
  rw [tokenize_eq_ok_iff, hsource, hlength, hclose, ← String.length_toList]
  refine ⟨fun h => hqb (hstate.mp h), ?_⟩
  rw [wordsOf, wordsOf, wordsOf, hlength, wordAt_append_later]
  simp

/-! ### Sources of nothing but blanks and line feeds -/

/-- Spaces, tabs and line feeds, and nothing else. -/
def IsBlankText (s : List Char) : Prop := ∀ c ∈ s, c = ' ' ∨ c = '\t' ∨ c = '\n'

/-- A character that is neither a blank nor a line feed. -/
def isShown (c : Char) : Bool := !(isBlank c || c == '\n')

lemma isBlankText_iff {s : List Char} : IsBlankText s ↔ ∀ c ∈ s, isShown c = false := by
  simp only [IsBlankText, isShown, isBlank, Bool.not_eq_false', Bool.or_eq_true, beq_iff_eq,
    or_assoc]

lemma isShown_iff {c : Char} :
    isShown c = true ↔ CharClass.ofChar c ≠ .whitespace ∧ CharClass.ofChar c ≠ .lineBreak := by
  simp [isShown, CharClass.ofChar_eq_iff, CharClass.Holds]

lemma IsName.exists_shown {s : List Char} (h : IsName s) : ∃ c ∈ s, isShown c = true := by
  obtain ⟨c, r, rfl, hc, -⟩ := h
  have hclass : CharClass.ofChar c = .letter := CharClass.ofChar_eq_iff.mpr hc
  refine ⟨c, List.mem_cons_self, isShown_iff.mpr ?_⟩
  rw [hclass]
  decide

lemma IsOperator.exists_shown {s : List Char} (h : IsOperator s) :
    ∃ c ∈ s, isShown c = true := by
  cases h with
  | @glyph c r hc _ =>
    refine ⟨c, List.mem_cons_self, isShown_iff.mpr ?_⟩
    rw [isGlyph_iff, isInflection_iff] at hc
    rcases hc with hc | hc | hc <;> rw [hc] <;> decide
  | name hs _ _ =>
    obtain ⟨c, hc, hshown⟩ := hs.exists_shown
    exact ⟨c, List.mem_append_left _ hc, hshown⟩
  | numeral _ _ => exact ⟨':', List.mem_append_right _ List.mem_cons_self, by decide⟩

lemma IsQuotation.exists_shown {s : List Char} (h : IsQuotation s) :
    ∃ c ∈ s, isShown c = true := by
  obtain ⟨t, ⟨inside, rfl⟩, rfl⟩ := h
  exact ⟨'\x22', List.mem_append_left _ List.mem_cons_self, by decide⟩

lemma NumeralList.exists_digit {source : List Char} {start stop : Nat} {parts : List String}
    (h : NumeralList source start stop parts) :
    ∃ c, source[start]? = some c ∧ isDigit c = true := by
  induction h with
  | one h => exact h.exists_digit
  | more _ _ _ _ ih => exact ih

/-- A word that is no line end shows. -/
lemma WordAt.exists_shown {source : List Char} {start stop : Nat} {t : Token}
    (h : WordAt source start stop t) (hk : t.kind ≠ .eol) :
    ∃ c ∈ slice source start stop, isShown c = true := by
  cases h with
  | name hs => exact hs.exists_shown
  | numerals hs =>
    obtain ⟨c, hc, hdigit⟩ := hs.exists_digit
    have hclass : CharClass.ofChar c = .digit := CharClass.ofChar_eq_iff.mpr hdigit
    refine ⟨c, mem_slice.mpr ⟨start, Nat.le_refl _, hs.lt, hc⟩, isShown_iff.mpr ?_⟩
    rw [hclass]
    decide
  | operator hs => exact hs.exists_shown
  | string hs => exact hs.exists_shown
  | lineEnd hs => exact absurd rfl hk

lemma WordAt.slice_of_lineEnd {source : List Char} {start stop : Nat} {t : Token}
    (h : WordAt source start stop t) (hk : t.kind = .eol) : slice source start stop = ['\n'] := by
  cases h with
  | lineEnd hs => exact hs
  | _ => cases hk

/-- **The words of a source are nothing but line ends exactly if it is blank.** -/
theorem forall_eol_iff {text : String} {ts : List Token} (h : tokenize text = .ok ts) :
    (∀ t ∈ ts, t.kind = .eol) ↔ IsBlankText text.toList := by
  rw [isBlankText_iff]
  obtain ⟨words, hl, rfl⟩ := exists_laid_of_tokenize_ok h
  generalize text.toList = source at hl ⊢
  constructor
  · intro hall c hc
    obtain ⟨i, hi⟩ := List.mem_iff_getElem?.mp hc
    by_cases hin : ∃ t ∈ wordsOf source words, t.pos ≤ i ∧ i < t.stop
    · -- a character in a line end is a line feed
      obtain ⟨t, ht, hpos, hstop⟩ := hin
      rcases hl.of_mem_wordsOf ht with ⟨start, stop, hw, -⟩ | rfl
      · rw [hw.place.1] at hpos
        rw [hw.place.2] at hstop
        have hmem : c ∈ slice source start stop := mem_slice.mpr ⟨i, by omega, by omega, hi⟩
        rw [hw.slice_of_lineEnd (hall t ht)] at hmem
        rw [List.mem_singleton.mp hmem]
        rfl
      · have hstart : (source.length : Int) ≤ i := hpos
        have hend : (i : Int) < source.length := hstop
        omega
    · have hblank := hl.isBlank_of_outside_wordsOf hi fun t ht hbad => hin ⟨t, ht, hbad⟩
      rw [isShown, hblank]
      rfl
  · intro hall t ht
    rcases hl.of_mem_wordsOf ht with ⟨start, stop, hw, -⟩ | rfl
    · refine Classical.byContradiction fun hk => ?_
      obtain ⟨c, hc, hshown⟩ := hw.exists_shown hk
      obtain ⟨i, -, -, hi⟩ := mem_slice.mp hc
      rw [hall c (List.mem_iff_getElem?.mpr ⟨i, hi⟩)] at hshown
      cases hshown
    · rfl

end ArrayCalc.Lexer

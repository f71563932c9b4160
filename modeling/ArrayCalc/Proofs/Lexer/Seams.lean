import ArrayCalc.Proofs.Lexer.Lines
/-!
Two sources with a separator between them.

Behind a separator a source is read as if it stood alone, and its words come on top of those of the
source before it.  The only place where the two can meet is the seam: two lists of numerals with
nothing but a blank between them are one list.

* `Token.joined`, `addWord`, `onto`: two lists of numerals as one word, and words put on top of
  others; `onto_concat`: the words meet at the seam only, and `addWord_onto`: it does not matter
  whether a word is added before or after;
* `Machine.onto`: a machine with other words below its own; **`Machine.next_onto`,
  `Machine.read_onto`: it reads as it would without them**;
* `Machine.read_behind_blank`: what is read behind a blank;
* `tokenize_separated`: **the words of two sources with a line feed or a space between them**, and
  the failure if the second one leaves a quotation open.
-/

namespace ArrayCalc.Lexer

variable {source : List Char}

/-! ### Words on top of words -/

/-- Two lists of numerals as one word of a source. -/
def Token.joined (source : List Char) (t u : Token) : Token :=
  { t with
    text := String.ofList (slice source t.pos.toNat u.stop.toNat)
    stop := u.stop
    parts := t.parts ++ u.parts }

/-- Words, the last one first, with one more word: two lists of numerals become one. -/
def addWord (source : List Char) (t : Token) : List Token → List Token
  | [] => [t]
  | last :: base =>
    if last.kind = .number ∧ t.kind = .number then last.joined source t :: base
    else t :: last :: base

/-- Words on top of others, the last ones first. -/
def onto (source : List Char) (base : List Token) : List Token → List Token
  | [] => base
  | [t] => addWord source t base
  | t :: u :: words => t :: onto source base (u :: words)

lemma addWord_of_apart {t : Token} {base : List Token}
    (h : ∀ last ∈ base.head?, ¬ (last.kind = .number ∧ t.kind = .number)) :
    addWord source t base = t :: base := by
  cases base with
  | nil => rfl
  | cons last base => rw [addWord, if_neg (h last rfl)]

lemma addWord_of_ne {t : Token} (h : t.kind ≠ .number) (base : List Token) :
    addWord source t base = t :: base := addWord_of_apart fun _ _ hboth => h hboth.2

lemma addWord_cons_of_ne {last : Token} (h : last.kind ≠ .number) (t : Token)
    (base : List Token) : addWord source t (last :: base) = t :: last :: base := by
  refine addWord_of_apart ?_
  rintro _ ⟨⟩ hboth
  exact h hboth.1

lemma addWord_of_numbers {t last : Token} (hlast : last.kind = .number) (ht : t.kind = .number)
    (base : List Token) : addWord source t (last :: base) = last.joined source t :: base :=
  if_pos ⟨hlast, ht⟩

lemma onto_cons_of_ne {t : Token} (h : t.kind ≠ .number) (base words : List Token) :
    onto source base (t :: words) = t :: onto source base words := by
  cases words with
  | nil => exact addWord_of_ne h base
  | cons u words => rfl

/-- Only the first one of the words on top meets what is below. -/
lemma onto_concat (base words : List Token) (t : Token) :
    onto source base (words ++ [t]) = words ++ addWord source t base := by
  induction words with
  | nil => rfl
  | cons u words ih =>
    rw [List.cons_append, List.cons_append, ← ih]
    cases words with
    | nil => rfl
    | cons v words => rfl

lemma joined_joined (s t u : Token) :
    (s.joined source t).joined source u = s.joined source (t.joined source u) := by
  simp only [Token.joined, List.append_assoc]

/-- Of three words it does not matter which two are put together first. -/
lemma addWord_addWord {w t : Token} (hw : w.kind = .number) (ht : t.kind = .number)
    (base : List Token) :
    addWord source w (addWord source t base) = addWord source (t.joined source w) base := by
  cases base with
  | nil => exact addWord_of_numbers ht hw []
  | cons last base =>
    have hjoined : (t.joined source w).kind = .number := ht
    by_cases hlast : last.kind = .number
    · have hfirst : (last.joined source t).kind = .number := hlast
      rw [addWord_of_numbers hlast ht, addWord_of_numbers hfirst hw,
        addWord_of_numbers hlast hjoined, joined_joined]
    · rw [addWord_cons_of_ne hlast, addWord_cons_of_ne hlast, addWord_of_numbers ht hw]

/-- It does not matter whether a word is added before or after the words are put on top. -/
lemma addWord_onto (w : Token) (base words : List Token) :
    addWord source w (onto source base words) = onto source base (addWord source w words) := by
  by_cases hw : w.kind = .number
  · match words with
    | [] => rfl
    | t :: words =>
      by_cases ht : t.kind = .number
      · rw [addWord_of_numbers ht hw]
        cases words with
        | nil => exact addWord_addWord hw ht base
        | cons u words => exact addWord_of_numbers ht hw _
      · rw [onto_cons_of_ne ht, addWord_cons_of_ne ht, addWord_cons_of_ne ht, onto,
          onto_cons_of_ne ht]
  · rw [addWord_of_ne hw, addWord_of_ne hw, onto_cons_of_ne hw]

/-! ### Machines with other words below their own -/

namespace Machine

/-- The open span, when it ends, is one more word. -/
lemma close_eq_addWord {m : Machine} {kind : TokenKind} (hk : m.state.tokenKind = some kind)
    (stop : Nat) :
    m.close source stop = addWord source (wordAt source m.start stop kind) m.words := by
  rw [close, hk]
  by_cases hnumber : kind = .number
  · subst hnumber
    cases hwords : m.words with
    | nil => rfl
    | cons last words =>
      by_cases hlast : last.kind = .number
      · rw [addWord_of_numbers hlast rfl]
        exact if_pos hlast
      · rw [addWord_cons_of_ne hlast]
        exact if_neg hlast
  · rw [addWord_of_ne hnumber]
    cases kind with
    | number => exact absurd rfl hnumber
    | _ => rfl

/-- The machine with other words below its own. -/
def onto (source : List Char) (base : List Token) (m : Machine) : Machine :=
  { m with words := Lexer.onto source base m.words }

variable (base : List Token) (m : Machine)

lemma close_onto (stop : Nat) :
    (m.onto source base).close source stop = Lexer.onto source base (m.close source stop) := by
  cases hk : m.state.tokenKind with
  | none =>
    have hk' : (m.onto source base).state.tokenKind = none := hk
    rw [close, close, hk, hk']
    rfl
  | some kind =>
    have hk' : (m.onto source base).state.tokenKind = some kind := hk
    rw [close_eq_addWord hk, close_eq_addWord hk', ← addWord_onto]
    rfl

/-- **One character does the same above other words.** -/
theorem next_onto (place : Nat) (c : CharClass) :
    (m.onto source base).next source place c = (m.next source place c).onto source base := by
  rw [next, next]
  cases hcont : m.state.continues c with
  | some s =>
    have hcont' : (m.onto source base).state.continues c = some s := hcont
    rw [hcont']
    rfl
  | none =>
    have hcont' : (m.onto source base).state.continues c = none := hcont
    rw [hcont']
    simp only [close_onto]
    rfl

/-- **So do all characters.** -/
theorem read_onto (i : Nat) (rest : List Char) :
    (m.onto source base).read source i rest = (m.read source i rest).onto source base := by
  induction rest generalizing i m with
  | nil => rfl
  | cons c rest ih => rw [read, read, next_onto, ih]

end Machine

/-! ### Behind a blank -/

namespace Machine

/-- Behind a blank a source starts like any other. -/
lemma read_whitespace (start i : Nat) (words : List Token) (rest : List Char) :
    let m := (⟨.whitespace, start, words⟩ : Machine).read source i rest
    let m' := (⟨.initial, start, words⟩ : Machine).read source i rest
    (m.state = .quoted ↔ m'.state = .quoted) ∧ m.start = m'.start ∧
      m.close source (i + rest.length) = m'.close source (i + rest.length) := by
  cases rest with
  | nil => exact ⟨by simp [read], rfl, rfl⟩
  | cons c rest => exact ⟨Iff.rfl, rfl, rfl⟩

/-- Two sources read one after the other with a space between them: the quotes of the second one
decide whether one is open and where, and its words come on top of those of the first one. -/
lemma read_behind_blank {s t : List Char} (hs : (Machine.initial.read s 0 s).state ≠ .quoted) :
    let m := Machine.initial.read (s ++ [' '] ++ t) 0 (s ++ [' '] ++ t)
    let m' := Machine.initial.read t 0 t
    (m.state = .quoted ↔ m'.state = .quoted) ∧
      (m'.state = .quoted → m.start = (s ++ [' ']).length + m'.start) ∧
      m.close (s ++ [' '] ++ t) ((s ++ [' ']).length + t.length) =
        Lexer.onto (s ++ [' '] ++ t) ((Machine.initial.read s 0 s).close s s.length)
          ((m'.close t t.length).map (Token.later (s ++ [' ']).length)) := by
  have hread := read_separated s t (c := ' ') (State.continues_whitespace hs)
  dsimp only
  rw [hread]
  generalize (Machine.initial.read s 0 s).close s s.length = base
  generalize (Machine.initial.read s 0 s).start = start
  obtain ⟨hstate, hopen, hclose⟩ :=
    @read_whitespace (s ++ [' '] ++ t) start (s ++ [' ']).length base t
  -- with the words below left out, the machine is in step with one that reads the second source
  have hbelow : (⟨.initial, start, base⟩ : Machine) =
      (⟨.initial, start, []⟩ : Machine).onto (s ++ [' '] ++ t) base := rfl
  have hstart : Machine.initial.Mirrors (s ++ [' ']).length [] ⟨.initial, start, []⟩ :=
    ⟨rfl, fun h => absurd rfl h, rfl, List.forall_mem_nil _⟩
  have hbase : ∀ e ∈ ([] : List Token).head?, e.kind ≠ .number := by
    rintro e ⟨⟩
  have hmirrors := hstart.read (s := t) hbase 0 t
  have hwords := hmirrors.close (s := t) hbase t.length
  rw [Nat.add_zero] at hmirrors hwords
  rw [List.append_nil] at hwords
  rw [hbelow, read_onto] at hstate hopen hclose
  rw [close_onto, hwords] at hclose
  refine ⟨hstate.trans (by rw [← hmirrors.state]; rfl), fun hq => hopen.trans (hmirrors.start ?_),
    hclose⟩
  rw [hq]
  exact Option.some_ne_none _

end Machine
/-! ### The words of two sources -/

/-- A source fails exactly if a quotation is open at its end. -/
lemma tokenize_eq_error_iff {text : String} {e : LexError} :
    tokenize text = .error e ↔
      (Machine.initial.read text.toList 0 text.toList).state = .quoted ∧
      e = .unterminated (Machine.initial.read text.toList 0 text.toList).start text.length := by
  rw [tokenize_eq, ← String.length_toList]
  dsimp only
  split
  · rename_i hq
    rw [Except.error.injEq, eq_comm]
    exact (and_iff_right hq).symm
  · rename_i hq
    simp [hq]

/-- Words of which no two lists of numerals meet come one after the other. -/
lemma reverse_onto_of_apart {ts us : List Token}
    (h : ∀ t ∈ ts.getLast?, ∀ u ∈ us.head?, ¬ (t.kind = .number ∧ u.kind = .number)) :
    (onto source ts.reverse us.reverse).reverse = ts ++ us := by
  cases us with
  | nil => rw [List.reverse_nil, onto, List.reverse_reverse, List.append_nil]
  | cons u us =>
    have hapart : addWord source u ts.reverse = u :: ts.reverse :=
      addWord_of_apart fun t ht => h t (List.head?_reverse ▸ ht) u rfl
    rw [List.reverse_cons, onto_concat, hapart, List.reverse_append, List.reverse_reverse,
      List.reverse_cons, List.reverse_reverse, List.append_assoc, List.singleton_append]

/-- Two lists of numerals that meet are one word. -/
lemma reverse_onto_of_numbers {t u : Token} (ht : t.kind = .number) (hu : u.kind = .number)
    (ts us : List Token) :
    (onto source (ts ++ [t]).reverse (u :: us).reverse).reverse =
      ts ++ t.joined source u :: us := by
  rw [List.reverse_concat, List.reverse_cons, onto_concat, addWord_of_numbers ht hu,
    List.reverse_append, List.reverse_reverse, List.reverse_cons, List.reverse_reverse,
    List.append_assoc, List.singleton_append]

lemma toList_separated (a b : String) {separator : String} {c : Char}
    (h : separator.toList = [c]) :
    (a ++ separator ++ b).toList = a.toList ++ [c] ++ b.toList := by
  rw [String.toList_append, String.toList_append, h]

/-- The words of a source behind a blank come on top of those before it. -/
lemma tokenize_append_blank {a b : String} {as bs : List Token}
    (ha : tokenize a = .ok (as ++ [⟨.eol, "", a.length, a.length, []⟩]))
    (hb : tokenize b = .ok bs) :
    tokenize (a ++ " " ++ b) =
      .ok (onto (a ++ " " ++ b).toList as.reverse
        (bs.map (Token.later (a.length + 1))).reverse).reverse := by
  obtain ⟨hqa, hwords⟩ := tokenize_eq_ok_iff.mp ha
  obtain ⟨hqb, rfl⟩ := tokenize_eq_ok_iff.mp hb
  have hsource : (a ++ " " ++ b).toList = a.toList ++ [' '] ++ b.toList :=
    toList_separated a b rfl
  have hlength : (a.toList ++ [' '] ++ b.toList).length =
      (a.toList ++ [' ']).length + b.toList.length := List.length_append
  have hfront : (a.toList ++ [' ']).length = a.length + 1 := by
    rw [List.length_append, String.length_toList, List.length_singleton]
  rw [wordsOf, wordAt_end, String.length_toList, List.append_left_inj] at hwords
  obtain ⟨hstate, -, hclose⟩ := @Machine.read_behind_blank a.toList b.toList hqa
  rw [tokenize_eq_ok_iff, hsource, hlength, hclose]
  refine ⟨fun h => hqb (hstate.mp h), ?_⟩
  rw [wordsOf, wordsOf, hlength, wordAt_append_later, hwords, List.reverse_reverse,
    List.map_append, List.map_singleton, List.reverse_concat, onto_cons_of_ne TokenKind.noConfusion,
    List.reverse_cons, hfront, List.map_reverse, List.reverse_reverse]
  simp only [String.length_toList]

/-- A quotation left open in a source is left open behind a separator as well, as many places
later. -/
lemma tokenize_separated_eq_error {a b separator : String} {c : Char} {start stop : Nat}
    (hc : separator.toList = [c]) (hb : tokenize b = .error (.unterminated start stop))
    (hstate : (Machine.initial.read b.toList 0 b.toList).state = .quoted →
      let m := Machine.initial.read (a.toList ++ [c] ++ b.toList) 0 (a.toList ++ [c] ++ b.toList)
      m.state = .quoted ∧ m.start = (a.toList ++ [c]).length +
        (Machine.initial.read b.toList 0 b.toList).start) :
    tokenize (a ++ separator ++ b) =
      .error (.unterminated (a.length + 1 + start) (a.length + 1 + stop)) := by
  obtain ⟨hq, hplace⟩ := tokenize_eq_error_iff.mp hb
  obtain ⟨hopen, hstart⟩ := hstate hq
  obtain ⟨rfl, rfl⟩ := LexError.unterminated.inj hplace
  have hfront : (a.toList ++ [c]).length = a.length + 1 := by
    rw [List.length_append, String.length_toList, List.length_singleton]
  have hlength : (a ++ separator ++ b).length = a.length + 1 + b.length := by
    rw [← String.length_toList, toList_separated a b hc, List.length_append, hfront,
      String.length_toList]
  rw [tokenize_eq_error_iff, toList_separated a b hc, hlength, hstart, hfront]
  exact ⟨hopen, rfl⟩

/-- **Two sources with a separator between them.**  Let no quotation be open at the end of the first
one.  With a line feed between the two, the words are those of the first one, the line end, and
those of the second one, as many places later; with a space between them, the words are those of
both, except that two lists of numerals that meet there are one list, which spans both.  If the
second source leaves a quotation open, so do the two together, as many places later. -/
theorem tokenize_separated (a b : String) (ha : a.toList.count '\x22' % 2 = 0) :
    ∃ as, tokenize a = .ok (as ++ [⟨.eol, "", a.length, a.length, []⟩]) ∧
    (b.toList.count '\x22' % 2 = 0 →
      ∃ bs, tokenize b = .ok bs ∧
        tokenize (a ++ "\n" ++ b) =
          .ok (as ++ lineEndAt a.length :: bs.map (Token.later (a.length + 1))) ∧
        (∀ before t u after, as = before ++ [t] → bs = u :: after →
          t.kind = .number → u.kind = .number →
          tokenize (a ++ " " ++ b) =
            .ok (before ++ t.joined (a ++ " " ++ b).toList (u.later (a.length + 1)) ::
              after.map (Token.later (a.length + 1)))) ∧
        ((∀ t ∈ as.getLast?, ∀ u ∈ bs.head?, ¬ (t.kind = .number ∧ u.kind = .number)) →
          tokenize (a ++ " " ++ b) = .ok (as ++ bs.map (Token.later (a.length + 1))))) ∧
    (b.toList.count '\x22' % 2 = 1 →
      ∃ start stop, tokenize b = .error (.unterminated start stop) ∧
        tokenize (a ++ "\n" ++ b) =
          .error (.unterminated (a.length + 1 + start) (a.length + 1 + stop)) ∧
        tokenize (a ++ " " ++ b) =
          .error (.unterminated (a.length + 1 + start) (a.length + 1 + stop))) := by
  obtain ⟨ts, hts⟩ := exists_tokenize_ok ha
  obtain ⟨hqa, rfl⟩ := tokenize_eq_ok_iff.mp hts
  rw [wordsOf, wordAt_end, String.length_toList] at hts
  refine ⟨_, hts, fun hb => ?even, fun hb => ?odd⟩
  case even =>
    obtain ⟨bs, hbs⟩ := exists_tokenize_ok hb
    refine ⟨bs, hbs, ?line, ?joined, fun happart => ?apart⟩
    case line =>
      rw [tokenize_append_line hts hbs, List.dropLast_concat]
    case joined =>
      rintro before t u after hfirst rfl ht hu
      rw [tokenize_append_blank hts hbs, hfirst, List.map_cons]
      have hlater : (u.later (a.length + 1)).kind = .number := hu
      rw [reverse_onto_of_numbers ht hlater]
    case apart =>
      rw [tokenize_append_blank hts hbs, reverse_onto_of_apart]
      intro t ht u hu
      rw [List.head?_map] at hu
      obtain ⟨w, hw, rfl⟩ := Option.map_eq_some_iff.mp hu
      exact happart t ht w hw
  case odd =>
    have hopen : (Machine.initial.read b.toList 0 b.toList).state = .quoted := by
      rw [state_read_eq_quoted, hb]
      decide
    refine ⟨_, _, tokenize_eq_error_iff.mpr ⟨hopen, rfl⟩, ?line, ?blank⟩
    case line =>
      obtain ⟨hstate, hstart, -⟩ := @Machine.read_two_lines a.toList b.toList hqa
      exact tokenize_separated_eq_error rfl (tokenize_eq_error_iff.mpr ⟨hopen, rfl⟩)
        fun hq => ⟨hstate.mpr hq, hstart hq⟩
    case blank =>
      obtain ⟨hstate, hstart, -⟩ := @Machine.read_behind_blank a.toList b.toList hqa
      exact tokenize_separated_eq_error rfl (tokenize_eq_error_iff.mpr ⟨hopen, rfl⟩)
        fun hq => ⟨hstate.mpr hq, hstart hq⟩

/-- A list that goes on behind a space, but not behind a line feed; and a quotation that is left
open behind either of them. -/
theorem separated_list_and_quotation :
    "x 1 2".toList.count '\x22' % 2 = 0 ∧ "3 y".toList.count '\x22' % 2 = 0 ∧
    "a\x22b".toList.count '\x22' % 2 = 1 ∧
    tokenize "x 1 2\n3 y" =
      .ok [⟨.name, "x", 0, 1, []⟩, ⟨.number, "1 2", 2, 5, ["1", "2"]⟩, ⟨.eol, "\n", 5, 6, []⟩,
        ⟨.number, "3", 6, 7, ["3"]⟩, ⟨.name, "y", 8, 9, []⟩, ⟨.eol, "", 9, 9, []⟩] ∧
    tokenize "x 1 2 3 y" =
      .ok [⟨.name, "x", 0, 1, []⟩, ⟨.number, "1 2 3", 2, 7, ["1", "2", "3"]⟩,
        ⟨.name, "y", 8, 9, []⟩, ⟨.eol, "", 9, 9, []⟩] ∧
    tokenize "x 1 2\na\x22b" = .error (.unterminated 7 9) ∧
    tokenize "x 1 2 a\x22b" = .error (.unterminated 7 9) := by
  have heven : "x 1 2".toList.count '\x22' % 2 = 0 := by decide
  have heven' : "3 y".toList.count '\x22' % 2 = 0 := by decide
  have hodd : "a\x22b".toList.count '\x22' % 2 = 1 := by decide
  have hfirst : tokenize "x 1 2" =
      .ok ([⟨.name, "x", 0, 1, []⟩, ⟨.number, "1 2", 2, 5, ["1", "2"]⟩] ++
        [⟨.eol, "", 5, 5, []⟩]) := rfl
  have hsecond : tokenize "3 y" =
      .ok [⟨.number, "3", 0, 1, ["3"]⟩, ⟨.name, "y", 2, 3, []⟩, ⟨.eol, "", 3, 3, []⟩] := rfl
  have hopen : tokenize "a\x22b" = .error (.unterminated 1 3) := rfl
  refine ⟨heven, heven', hodd, ?_⟩
  obtain ⟨as, has, hwords, -⟩ := tokenize_separated "x 1 2" "3 y" heven
  obtain ⟨bs, hbs, hline, hjoined, -⟩ := hwords heven'
  obtain ⟨-, -, -, hfails⟩ := tokenize_separated "x 1 2" "a\x22b" heven
  obtain ⟨start, stop, hb, hline', hblank⟩ := hfails hodd
  rw [hfirst, Except.ok.injEq] at has
  obtain rfl := (List.append_left_inj _).mp has
  rw [hsecond] at hbs
  rw [hopen] at hb
  cases hbs
  cases hb
  exact ⟨hline, hjoined [⟨.name, "x", 0, 1, []⟩] _ _ _ rfl rfl rfl rfl, hline', hblank⟩

end ArrayCalc.Lexer

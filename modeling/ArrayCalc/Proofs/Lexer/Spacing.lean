import ArrayCalc.Proofs.Lexer.Lines
import Mathlib.Data.List.Forall2
/-!
Blanks part the words of a source and have no other meaning.

* `lexemes`: the texts that the words of a source are made of, the numerals of a list one by one;
  `Spaced`: texts with blanks between them;
* `Token.face`: a word without its place; `sameWord_of_face_eq`: words with the same face are the
  same but for their places and the blanks in a list of numerals;
* `addLexeme`, `gather`: the words that lexemes make, where numerals next to each other are put into
  one list; `gather_pieces`: **the words of a source are what its lexemes make**;
* `Machine.Between`, `Machine.Made`: the words so far are what lexemes make, outside of words and
  with the open span; `Machine.Between.lexeme`, `Machine.Made.between`: a lexeme and blanks lead
  from the one to the other, and from them `Machine.made_of_spaced`: **lexemes with blanks between
  them make their words**;
* `tokenize_spaced`: so **a source and its lexemes with blanks between them have the same words.**
-/

namespace ArrayCalc.Lexer

variable {source : List Char}

/-! ### Lexemes -/

namespace Token

/-- The texts that a word is made of: the numerals of a list, and the text of any other word. -/
def lexemes (t : Token) : List String := if t.kind = .number then t.parts else [t.text]

/-- The texts that a word is made of, each with the kind of the word. -/
def pieces (t : Token) : List (TokenKind × String) := t.lexemes.map fun text => (t.kind, text)

/-- A word without its place. -/
def face (t : Token) : TokenKind × List String := (t.kind, t.lexemes)

lemma map_snd_pieces (t : Token) : t.pieces.map Prod.snd = t.lexemes := by
  rw [pieces, List.map_map]
  exact List.map_id _

end Token

/-- The texts that the words of a source are made of; the end of the source does not count. -/
def lexemes (ts : List Token) : List String := ts.dropLast.flatMap Token.lexemes

/-- Texts with blanks between them; no texts make no characters. -/
def Spaced (texts : List String) (s : List Char) : Prop :=
  texts = [] ∧ s = [] ∨ JoinedByBlanks texts s

lemma sameWord_of_face_eq {t t' : Token} (h : t'.face = t.face) : SameWord t t' := by
  obtain ⟨hkind, hlexemes⟩ := Prod.mk.inj h
  refine ⟨hkind, fun hk => ?_, fun hk => ?_⟩
  · rwa [Token.lexemes, Token.lexemes, if_pos (hkind.trans hk), if_pos hk] at hlexemes
  · rw [Token.lexemes, Token.lexemes, if_neg (hkind ▸ hk), if_neg hk] at hlexemes
    exact (List.cons.inj hlexemes).1

lemma forall₂_sameWord {ts ts' : List Token} (h : ts'.map Token.face = ts.map Token.face) :
    List.Forall₂ SameWord ts ts' := by
  rw [eq_comm, ← List.forall₂_eq_eq_eq, List.forall₂_map_left_iff, List.forall₂_map_right_iff] at h
  exact h.imp fun _ _ heq => sameWord_of_face_eq heq.symm

/-- A text that is a word by itself, or a numeral of a list, with its kind. -/
def IsLexeme (l : TokenKind × String) : Prop :=
  ∃ s : State, s ≠ .quoted ∧ s.tokenKind = some l.1 ∧ s.Spells l.2.toList

lemma NumeralList.isNumeral {start stop : Nat} {parts : List String}
    (h : NumeralList source start stop parts) : ∀ p ∈ parts, IsNumeral p.toList := by
  have hlast : ∀ {start stop : Nat}, NumeralAt source start stop →
      IsNumeral (String.ofList (slice source start stop)).toList := by
    intro start stop h
    rw [String.toList_ofList]
    exact h.spelled
  induction h with
  | one h => exact List.forall_mem_singleton.mpr (hlast h)
  | more _ _ _ h ih =>
    intro p hp
    rcases List.mem_append.mp hp with hp | hp
    · exact ih p hp
    · rw [List.mem_singleton.mp hp]
      exact hlast h

namespace WordAt

variable {start stop : Nat} {t : Token}

/-- The pieces of a word are lexemes. -/
lemma isLexeme (h : WordAt source start stop t) : ∀ l ∈ t.pieces, IsLexeme l := by
  have hone : ∀ (s : State) (kind : TokenKind), s ≠ .quoted → s.tokenKind = some kind →
      s.Spells (slice source start stop) →
      IsLexeme (kind, String.ofList (slice source start stop)) := by
    intro s kind hq hk hs
    exact ⟨s, hq, hk, by rwa [String.toList_ofList]⟩
  cases h with
  | numerals h =>
    intro l hl
    obtain ⟨p, hp, rfl⟩ := List.mem_map.mp hl
    exact ⟨.numeric, by decide, rfl, h.isNumeral p hp⟩
  | name h => exact List.forall_mem_singleton.mpr (hone .alphanumeric .name (by decide) rfl h)
  | operator h => exact List.forall_mem_singleton.mpr (hone .other .operator (by decide) rfl h)
  | string h => exact List.forall_mem_singleton.mpr (hone .doubleQuoted .string (by decide) rfl h)
  | lineEnd h => exact List.forall_mem_singleton.mpr (hone .lineBreak .eol (by decide) rfl h)

lemma lexemes_ne_nil (h : WordAt source start stop t) : t.lexemes ≠ [] := by
  cases h with
  | numerals h =>
    cases h with
    | one => exact List.cons_ne_nil _ _
    | more => exact List.append_ne_nil_of_right_ne_nil _ (List.cons_ne_nil _ _)
  | _ => exact List.cons_ne_nil _ _

end WordAt

/-! ### The words that lexemes make -/

/-- Words, the last one first, with one more lexeme: a numeral joins a list of numerals. -/
def addLexeme (l : TokenKind × String) :
    List (TokenKind × List String) → List (TokenKind × List String)
  | [] => [(l.1, [l.2])]
  | f :: fs =>
    if l.1 = .number ∧ f.1 = .number then (.number, f.2 ++ [l.2]) :: fs
    else (l.1, [l.2]) :: f :: fs

/-- Lexemes put on top of words, in order. -/
def addLexemes (fs : List (TokenKind × List String)) (ls : List (TokenKind × String)) :
    List (TokenKind × List String) := ls.foldl (fun fs l => addLexeme l fs) fs

/-- The words that lexemes make, the last one first. -/
def gather (ls : List (TokenKind × String)) : List (TokenKind × List String) := addLexemes [] ls

lemma gather_append (ls ls' : List (TokenKind × String)) :
    gather (ls ++ ls') = addLexemes (gather ls) ls' := List.foldl_append

lemma addLexeme_apart {l : TokenKind × String} {fs : List (TokenKind × List String)}
    (h : l.1 = .number → ∀ f ∈ fs.head?, f.1 ≠ .number) : addLexeme l fs = (l.1, [l.2]) :: fs := by
  cases fs with
  | nil => rfl
  | cons f fs => rw [addLexeme, if_neg fun hboth => h hboth.1 f rfl hboth.2]

lemma addLexemes_numerals (parts texts : List String) (fs : List (TokenKind × List String)) :
    addLexemes ((.number, parts) :: fs) (texts.map fun text => (.number, text)) =
      (.number, parts ++ texts) :: fs := by
  induction texts generalizing parts with
  | nil => rw [List.append_nil, List.map_nil, addLexemes, List.foldl_nil]
  | cons text texts ih =>
    have hjoin : addLexeme (.number, text) ((.number, parts) :: fs) =
        (.number, parts ++ [text]) :: fs := rfl
    rw [List.map_cons, addLexemes, List.foldl_cons, hjoin]
    exact (ih (parts ++ [text])).trans (by rw [List.append_assoc, List.singleton_append])

/-- The pieces of a word make the word again. -/
lemma addLexemes_pieces {t : Token} {fs : List (TokenKind × List String)} (hne : t.lexemes ≠ [])
    (h : t.kind = .number → ∀ f ∈ fs.head?, f.1 ≠ .number) :
    addLexemes fs t.pieces = t.face :: fs := by
  rw [Token.pieces, Token.face]
  by_cases hk : t.kind = .number
  · obtain ⟨text, texts, htexts⟩ := List.exists_cons_of_ne_nil hne
    have hfirst := addLexeme_apart (l := (.number, text)) fun _ => h hk
    rw [hk, htexts, List.map_cons, addLexemes, List.foldl_cons, hfirst]
    exact addLexemes_numerals [text] texts fs
  · have hlexemes : t.lexemes = [t.text] := if_neg hk
    rw [hlexemes, List.map_singleton, addLexemes, List.foldl_cons, List.foldl_nil,
      addLexeme_apart fun hnumber => absurd hnumber hk]

/-- **The words of a source are what its lexemes make.**  No two lists of numerals are next to each
other, so none of them grows. -/
lemma Laid.gather_pieces {place : Nat} {words : List Token} (h : Laid source place words) :
    gather (words.reverse.flatMap Token.pieces) = words.map Token.face := by
  induction h with
  | nil => rfl
  | @cons start stop place t words _ hw _ _ _ hap ih =>
    have hapart : t.kind = .number → ∀ f ∈ (words.map Token.face).head?, f.1 ≠ .number := by
      intro hk f hf
      rw [List.head?_map] at hf
      obtain ⟨s, hs, rfl⟩ := Option.map_eq_some_iff.mp hf
      exact hap hk s hs
    rw [List.reverse_cons, List.flatMap_append, gather_append, ih, List.flatMap_singleton,
      addLexemes_pieces hw.lexemes_ne_nil hapart, List.map_cons]

/-! ### Reading lexemes -/

namespace Machine

lemma face_wordAt (start stop : Nat) (kind : TokenKind) :
    (wordAt source start stop kind).face = (kind, [String.ofList (slice source start stop)]) := by
  rw [Token.face, Token.lexemes, kind_wordAt]
  by_cases hnumber : kind = .number
  · rw [if_pos hnumber, wordAt]
    simp only [if_pos hnumber]
  · rw [if_neg hnumber]
    rfl

/-- A numeral that ends is one more lexeme. -/
lemma face_addNumeral (start stop : Nat) (words : List Token) :
    (addNumeral source start stop words).map Token.face =
      addLexeme (.number, String.ofList (slice source start stop)) (words.map Token.face) := by
  cases words with
  | nil => rfl
  | cons last words =>
    rw [addNumeral, List.map_cons, addLexeme]
    by_cases hlast : last.kind = .number
    · have hparts : last.lexemes = last.parts := if_pos hlast
      have hkind : (last.extend source start stop).kind = .number := hlast
      have hgrown : (last.extend source start stop).face =
          (.number, last.parts ++ [String.ofList (slice source start stop)]) := by
        rw [Token.face, Token.lexemes, if_pos hkind, hkind]
        rfl
      rw [if_pos hlast, if_pos ⟨rfl, hlast⟩, List.map_cons, hgrown, Token.face, hparts]
    · rw [if_neg hlast, if_neg fun hboth => hlast hboth.2]
      rfl

/-- The span that ends is one more lexeme. -/
lemma face_close {s : State} {kind : TokenKind} (hk : s.tokenKind = some kind) (start stop : Nat)
    (words : List Token) :
    ((⟨s, start, words⟩ : Machine).close source stop).map Token.face =
      addLexeme (kind, String.ofList (slice source start stop)) (words.map Token.face) := by
  rw [close, hk]
  by_cases hnumber : kind = .number
  · subst hnumber
    exact face_addNumeral start stop words
  · rw [addLexeme_apart fun h => absurd h hnumber, ← face_wordAt start stop kind]
    cases kind with
    | number => exact absurd rfl hnumber
    | _ => rfl

lemma initial_read_append (front text : List Char) :
    initial.read source 0 (front ++ text) =
      (initial.read source 0 front).read source front.length text := by
  rw [read_append, Nat.zero_add]

/-- When the characters `front` of a source have been read, no span of a word is open, and the words
are what the lexemes make. -/
structure Between (source front : List Char) (ls : List (TokenKind × String)) : Prop where
  outside : (initial.read source 0 front).state.tokenKind = none
  faces : (initial.read source 0 front).words.map Token.face = gather ls

/-- When the characters `front` of a source have been read, no quote is open, and the words are what
the lexemes make once the open span has ended. -/
structure Made (source front : List Char) (ls : List (TokenKind × String)) : Prop where
  apart : (initial.read source 0 front).state ≠ .quoted
  faces : ((initial.read source 0 front).close source front.length).map Token.face = gather ls

section Front

variable {front gap rest : List Char} {ls : List (TokenKind × String)} {l : TokenKind × String}

lemma between_blanks (hgap : AreBlanks gap) : Between source gap [] := by
  obtain ⟨hstate, hwords⟩ := @read_blanks source gap hgap .initial rfl 0
  exact ⟨hstate, congrArg (List.map Token.face) hwords⟩

lemma Between.made (h : Between source front ls) : Made source front ls := by
  refine ⟨State.ne_quoted_of_tokenKind_eq_none h.outside, ?_⟩
  rw [close, h.outside]
  exact h.faces

/-- A lexeme outside of words is one more lexeme. -/
lemma Between.lexeme (h : Between source front ls) (hl : IsLexeme l)
    (hsource : source = front ++ l.2.toList ++ rest) :
    Made source (front ++ l.2.toList) (ls ++ [l]) := by
  obtain ⟨s, hq, hk, hs⟩ := hl
  have hread : initial.read source 0 (front ++ l.2.toList) =
      ⟨s, front.length, (initial.read source 0 front).words⟩ := by
    rw [initial_read_append, read_word hs h.outside]
  have htext : slice source front.length (front ++ l.2.toList).length = l.2.toList := by
    rw [List.length_append, hsource, slice_append_append]
  refine ⟨?_, ?_⟩
  · rw [hread]
    exact hq
  · rw [hread, face_close hk, htext, String.ofList_toList, h.faces, gather_append]
    rfl

/-- Blanks end the open span. -/
lemma Made.between (h : Made source front ls) (hne : gap ≠ []) (hgap : AreBlanks gap) :
    Between source (front ++ gap) ls := by
  obtain ⟨hstate, hwords⟩ := @read_gap source gap hne hgap _ h.apart front.length
  rw [← initial_read_append] at hstate hwords
  exact ⟨hstate, hwords ▸ h.faces⟩

lemma Made.blanks (h : Made source front ls) (hgap : AreBlanks gap) :
    Made source (front ++ gap) ls := by
  obtain ⟨hq, hclose⟩ := @close_read_blanks source gap hgap _ h.apart front.length
  rw [← initial_read_append] at hq hclose
  refine ⟨hq, ?_⟩
  rw [List.length_append, hclose]
  exact h.faces

/-- **Lexemes with blanks between them make their words.**  By induction on the lexemes: the last
one but one is ended by the blanks behind it, and the last one is then read outside of words. -/
theorem made_of_spaced {lead s : List Char} (hlead : AreBlanks lead)
    (h : Spaced (ls.map Prod.snd) s) (hls : ∀ l ∈ ls, IsLexeme l)
    (hsource : source = lead ++ s ++ rest) : Made source (lead ++ s) ls := by
  rcases h with ⟨hnil, rfl⟩ | h
  · obtain rfl := List.map_eq_nil_iff.mp hnil
    rw [List.append_nil]
    exact (between_blanks hlead).made
  · generalize htexts : ls.map Prod.snd = texts at h
    induction h generalizing ls rest with
    | one p =>
      obtain ⟨l, rfl, rfl⟩ := List.map_eq_singleton_iff.mp htexts
      exact (between_blanks hlead).lexeme (hls l List.mem_cons_self) hsource
    | @more texts s gap p _ hne hgap ih =>
      obtain ⟨ls, last, rfl, rfl, hlast⟩ := List.map_eq_append_iff.mp htexts
      obtain ⟨l, rfl, rfl⟩ := List.map_eq_singleton_iff.mp hlast
      obtain ⟨hbefore, hl⟩ := List.forall_mem_append.mp hls
      simp only [← List.append_assoc] at hsource ⊢
      have hmade : Made source (lead ++ s) ls :=
        ih hbefore (by rw [hsource, List.append_assoc _ _ rest, List.append_assoc _ gap]) rfl
      exact (hmade.between hne hgap).lexeme (hl l List.mem_cons_self) hsource

end Front

end Machine

/-! ### The words of a source -/

lemma map_face_wordsOf (source : List Char) (words : List Token) :
    (wordsOf source words).map Token.face =
      (words.map Token.face).reverse ++ [(.eol, [""])] := by
  have hend : (wordAt source source.length source.length .eol).face = (.eol, [""]) := by
    rw [Machine.face_wordAt, slice, Nat.sub_self, List.take_zero]
  rw [wordsOf, List.map_append, List.map_singleton, hend, List.map_reverse]

/-- **A source and its lexemes with blanks between them have the same words**, but for their places
and the blanks in lists of numerals. -/
theorem tokenize_spaced {text : String} {ts : List Token} (h : tokenize text = .ok ts)
    {lead s trail : List Char} (hs : Spaced (lexemes ts) s) (hlead : AreBlanks lead)
    (htrail : AreBlanks trail) :
    ∃ ts', tokenize (String.ofList (lead ++ s ++ trail)) = .ok ts' ∧
      List.Forall₂ SameWord ts ts' := by
  obtain ⟨words, hl, rfl⟩ := exists_laid_of_tokenize_ok h
  have htexts : lexemes (wordsOf text.toList words) =
      (words.reverse.flatMap Token.pieces).map Prod.snd := by
    rw [lexemes, wordsOf, List.dropLast_concat, List.map_flatMap]
    simp only [Token.map_snd_pieces]
  have hpieces : ∀ l ∈ words.reverse.flatMap Token.pieces, IsLexeme l := by
    intro l hmem
    obtain ⟨t, ht, hlt⟩ := List.mem_flatMap.mp hmem
    obtain ⟨start, stop, hw, -⟩ := hl.exists_wordAt (List.mem_reverse.mp ht)
    exact hw.isLexeme l hlt
  have hmade : Machine.Made (lead ++ s ++ trail) (lead ++ s ++ trail)
      (words.reverse.flatMap Token.pieces) :=
    (Machine.made_of_spaced hlead (htexts ▸ hs) hpieces rfl).blanks htrail
  refine ⟨_, tokenize_eq_ok_iff.mpr ⟨?_, rfl⟩, forall₂_sameWord ?_⟩
  · rw [String.toList_ofList]
    exact hmade.apart
  · rw [map_face_wordsOf, map_face_wordsOf, String.toList_ofList, hmade.faces, hl.gather_pieces]

end ArrayCalc.Lexer

import ArrayCalc.Proofs.Lexer.Layout
import ArrayCalc.Proofs.Lexer.Lexemes
/-!
Lists of numerals in a source.

* `numeralWord`, `extend_numeralWord`: the word that a list of numerals makes, and one more numeral;
* `read_joined`: after numerals with blanks between them one word is open, and they are its parts;
* **`tokenize_numerals`: numerals with blanks around and between them are one word.**
-/

namespace ArrayCalc.Lexer

variable {source : List Char}

/-! ### Numerals with blanks between them -/

/-- One more numeral at the front. -/
lemma JoinedByBlanks.cons {ps : List String} {s gap : List Char} (p : String)
    (h : JoinedByBlanks ps s) (hne : gap ≠ []) (hgap : AreBlanks gap) :
    JoinedByBlanks (p :: ps) (p.toList ++ gap ++ s) := by
  induction h with
  | one q => exact .more q (.one p) hne hgap
  | @more ps s between q _ hne' hbetween ih =>
    have h := JoinedByBlanks.more q ih hne' hbetween
    have hassoc : p.toList ++ gap ++ (s ++ between ++ q.toList) =
        p.toList ++ gap ++ s ++ between ++ q.toList := by simp only [List.append_assoc]
    rw [hassoc]
    exact h

/-- The word that a list of numerals makes. -/
def numeralWord (start : Nat) (s : List Char) (parts : List String) : Token :=
  ⟨.number, String.ofList s, start, (start + s.length : Nat), parts⟩

/-- The word of a list goes on over blanks and one more numeral. -/
lemma extend_numeralWord {lead s gap p rest : List Char} (parts : List String)
    (hsource : source = lead ++ (s ++ gap ++ p) ++ rest) :
    (numeralWord lead.length s parts).extend source (lead.length + s.length + gap.length)
        (lead.length + (s ++ gap ++ p).length) =
      numeralWord lead.length (s ++ gap ++ p) (parts ++ [String.ofList p]) := by
  have hall : slice source lead.length (lead.length + (s ++ gap ++ p).length) = s ++ gap ++ p := by
    rw [hsource, slice_append_append]
  have hlast : slice source (lead.length + s.length + gap.length)
      (lead.length + (s ++ gap ++ p).length) = p := by
    have h := slice_append_append (lead ++ s ++ gap) p rest
    simp only [List.length_append, List.append_assoc, ← Nat.add_assoc] at h hsource ⊢
    rw [hsource, h]
  simp only [Token.extend, numeralWord, Int.toNat_natCast, hall, hlast]

/-- **After numerals with blanks between them one word is open, and they are its parts.**  By
induction on the numerals: the word before the last one is closed by the blanks behind it, and the
last one is added to it. -/
lemma read_joined {lead s : List Char} {parts : List String} (hlead : AreBlanks lead)
    (h : JoinedByBlanks parts s) (hparts : ∀ p ∈ parts, IsNumeral p.toList) (rest : List Char)
    (hsource : source = lead ++ s ++ rest) :
    ∃ start words, Machine.initial.read source 0 (lead ++ s) = ⟨.numeric, start, words⟩ ∧
      addNumeral source start (lead.length + s.length) words =
        [numeralWord lead.length s parts] := by
  induction h generalizing rest with
  | one p =>
    have hp := hparts p List.mem_cons_self
    obtain ⟨hstate, hwords⟩ := @Machine.read_blanks source lead hlead .initial rfl 0
    refine ⟨lead.length, [], ?_, ?_⟩
    · rw [Machine.read_append, Machine.read_word (s := .numeric) hp hstate, hwords, Nat.zero_add]
      rfl
    · rw [addNumeral, wordAt, hsource, slice_append_append, numeralWord, String.ofList_toList]
      rfl
  | @more ps s gap p hs hne hgap ih =>
    have hp := hparts p (List.mem_append_right ps List.mem_cons_self)
    obtain ⟨start, words, hread, hadd⟩ := ih (fun q hq => hparts q (List.mem_append_left _ hq))
      (gap ++ p.toList ++ rest) (by rw [hsource]; simp only [List.append_assoc])
    obtain ⟨hstate, hwords⟩ := @Machine.read_gap source gap hne hgap ⟨.numeric, start, words⟩
      State.noConfusion (lead.length + s.length)
    have hsplit : lead ++ (s ++ gap ++ p.toList) = lead ++ s ++ (gap ++ p.toList) := by
      simp only [List.append_assoc]
    refine ⟨lead.length + s.length + gap.length, [numeralWord lead.length s ps], ?_, ?_⟩
    · rw [hsplit, Machine.read_append, hread, List.length_append, Nat.zero_add,
        Machine.read_append, Machine.read_word (s := .numeric) hp hstate, hwords, Machine.close]
      exact congrArg _ hadd
    · have hnumber : (numeralWord lead.length s ps).kind = .number := rfl
      rw [addNumeral, if_pos hnumber, extend_numeralWord ps hsource, String.ofList_toList]

/-- **Numerals with blanks around and between them are one word**, of which they are the parts. -/
theorem tokenize_numerals {lead s trail : List Char} {parts : List String}
    (h : JoinedByBlanks parts s) (hparts : ∀ p ∈ parts, IsNumeral p.toList)
    (hlead : AreBlanks lead) (htrail : AreBlanks trail) :
    tokenize (String.ofList (lead ++ s ++ trail)) =
      .ok [numeralWord lead.length s parts,
        wordAt (lead ++ s ++ trail) (lead ++ s ++ trail).length (lead ++ s ++ trail).length
          .eol] := by
  obtain ⟨start, words, hread, hadd⟩ := read_joined hlead h hparts trail rfl
  have hplace : 0 + (lead ++ s).length = lead.length + s.length := by
    rw [List.length_append, Nat.zero_add]
  have hstop : (lead ++ s ++ trail).length = lead.length + s.length + trail.length := by
    simp only [List.length_append]
  obtain ⟨hq, hclose⟩ := @Machine.close_read_blanks (lead ++ s ++ trail) trail htrail
    ⟨.numeric, start, words⟩ State.noConfusion (lead.length + s.length)
  rw [← hstop] at hclose
  rw [tokenize_eq, String.toList_ofList]
  dsimp only
  rw [Machine.read_append, hread, hplace, if_neg hq, hclose, Machine.close]
  simp only [State.tokenKind, hadd]
  rfl

end ArrayCalc.Lexer

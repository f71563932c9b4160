import ArrayCalc.Primitive
import ArrayCalc.Proofs.Display.Rows
import ArrayCalc.Proofs.Sentence.Evaluation
/-!
Displays read back.

* `Noun.Restates`: a noun says the same numbers as another and is displayed like it;
  `restates_numeralNoun`: what displayed elements stand for restates the noun that they are from;
* `ReadsBack`: the display of a noun is one word, and its value restates the noun;
* `display_reads_back`: **so it is for every noun with elements, all of them numbers, and with no
  more than one axis.**
-/

namespace ArrayCalc

open Lexer

/-! ### Nouns restated -/

/-- `m` says the same numbers as `n` and is displayed like it.  It is an atom if it has one element,
and a list otherwise; its kind is that of `n` or integer, and its zeros have no sign. -/
structure Noun.Restates (n m : Noun) : Prop where
  isAtom : m.isAtom = decide (n.elements.length = 1)
  shape : m.shape = if n.elements.length = 1 then [] else [n.elements.length]
  kind : m.kind = n.kind ∨ m.kind = .integer
  quantities : m.elements.map Element.quantity = n.elements.map Element.quantity
  zeros : Element.minusZero ∉ m.elements
  display : m.display = n.display

section
variable {n : Noun} {f : Element → Element} (hf : ∀ e ∈ n.elements, e.ReadAs (f e))
include hf

lemma kind_cases_of_readAs : ∀ d ∈ n.elements.map f,
    d.kind = .integer ∨ d.kind = .decimal ∧ n.kind = .decimal := by
  intro d hd
  obtain ⟨e, he, rfl⟩ := List.mem_map.1 hd
  rw [← Noun.kind_of_mem_elements he]
  exact (hf e he).kind

lemma integer_le_of_readAs : ∀ d ∈ n.elements.map f, Kind.integer ≤ d.kind := by
  intro d hd
  rcases kind_cases_of_readAs hf d hd with h | ⟨h, -⟩ <;> rw [h] <;> decide

/-- At the kind of their list, the elements that are read restate those that are displayed. -/
lemma restates_raised : ∀ e ∈ n.elements,
    e.Restates ((f e).raised (commonNumeralKind (n.elements.map f))) := by
  intro e he
  refine (hf e he).restates _ (kind_le_commonNumeralKind (List.mem_map_of_mem he)) ?_
  rw [Noun.kind_of_mem_elements he]
  exact commonNumeralKind_cases (kind_cases_of_readAs hf)

lemma elements_of_readAs : (numeralNoun (n.elements.map f)).elements =
    n.elements.map fun e => (f e).raised (commonNumeralKind (n.elements.map f)) := by
  rw [elements_numeralNoun (integer_le_of_readAs hf), List.map_map]
  rfl

lemma texts_of_readAs : (numeralNoun (n.elements.map f)).texts = n.texts := by
  rw [Noun.texts, elements_of_readAs hf, List.map_map]
  exact List.map_congr_left fun e he => (restates_raised hf e he).text

/-- What the displayed elements of a noun stand for restates the noun. -/
lemma restates_numeralNoun (hrank : n.rank ≤ 1) :
    n.Restates (numeralNoun (n.elements.map f)) := by
  have hshape := shape_numeralNoun (n.elements.map f)
  have hrank' : (numeralNoun (n.elements.map f)).rank ≤ 1 := by
    rw [Noun.rank, hshape]
    split_ifs <;> simp
  refine ⟨?isAtom, ?shape, ?kind, ?quantities, ?zeros, ?display⟩
  case isAtom => rw [isAtom_numeralNoun, List.length_map]
  case shape => rw [hshape, List.length_map]
  case kind =>
    rw [kind_numeralNoun (integer_le_of_readAs hf)]
    rcases commonNumeralKind_cases (kind_cases_of_readAs hf) with h | ⟨h, hn⟩
    · exact .inr h
    · exact .inl (h.trans hn.symm)
  case quantities =>
    rw [elements_of_readAs hf, List.map_map]
    exact List.map_congr_left fun e he => (restates_raised hf e he).quantity
  case zeros =>
    rw [elements_of_readAs hf, List.mem_map]
    rintro ⟨e, he, hzero⟩
    exact (restates_raised hf e he).zero hzero
  case display =>
    rw [Noun.display_eq_row hrank', Noun.display_eq_row hrank, texts_of_readAs hf]

end

/-- What a session makes of the display of a noun: one word whose parts are the texts of the
elements, and a value that restates the noun. -/
structure ReadsBack (registry : Registry) (env : Environment) (n : Noun) : Prop where
  word : ∃ t e, tokenize n.display = .ok [t, e] ∧ t.kind = .number ∧
    t.parts = n.texts.map String.ofList ∧ e.kind = .eol
  value : ∃ m, (evaluate registry n.display).carryOut env = (.ok (some m), env) ∧ n.Restates m

/-- **Displays are read back**: that of a noun with elements, all of them numbers, and with no more
than one axis, is one word, and its value is displayed like the noun and says the same numbers.  No
text of an element is refused but that of what is not a number. -/
theorem display_reads_back (registry : Registry) (env : Environment) (n : Noun)
    (hrank : n.rank ≤ 1) (hne : n.elements ≠ [])
    (hnumbers : ∀ e ∈ n.elements, e.quantity ≠ .undefined) :
    ReadsBack registry env n ∧
      ∀ e : Element, ((∃ err, readNumeral (String.ofList e.text) = .error err) ↔
          e.text = ['_', '.']) ∧ (e.text = ['_', '.'] ↔ e.quantity = .undefined) := by
  refine ⟨?_, fun e => ⟨e.rejected_iff, e.text_eq_iff⟩⟩
  have hword := n.tokenize_display hrank hne
  refine ⟨hword, ?_⟩
  obtain ⟨t, e, htokens, ht, hparts, he⟩ := hword
  obtain ⟨f, hf⟩ : ∃ f : Element → Element, ∀ e ∈ n.elements, e.ReadAs (f e) := by
    have hread : ∀ e : Element, ∃ e', e ∈ n.elements → e.ReadAs e' := by
      intro e
      by_cases he : e ∈ n.elements
      · obtain ⟨e', he'⟩ := e.exists_readAs (hnumbers e he)
        exact ⟨e', fun _ => he'⟩
      · exact ⟨e, fun h => absurd h he⟩
    exact ⟨_, fun e => (hread e).choose_spec⟩
  have hliterals : t.parts.mapM readLiteral = .ok (n.elements.map f) := by
    rw [hparts, Noun.texts, List.map_map]
    refine mapM_map_ok fun d hd => ?_
    rw [Function.comp_apply, readLiteral, (hf d hd).reads]
    rfl
  refine ⟨numeralNoun (n.elements.map f), ?_, restates_numeralNoun hf hrank⟩
  rw [carryOut_evaluate_numeral registry env htokens ht he, numberLiteral_eq ht, hliterals]
  rfl

/-- A list of decimals with a fraction, a minus zero, an exponent and an infinity. -/
theorem reads_back_decimals :
    let n : Noun := .array .decimal ⟨[4], [1.5, -(0 : Float), -2.5e-20, infinity], rfl⟩
    n.display = "     1.5        0 _2.5e_20        _" ∧
      ReadsBack (.standard defaultLimit) .empty n := by
  intro n
  have hne : n.elements ≠ [] := List.cons_ne_nil _ _
  have hnumbers : ∀ e ∈ n.elements, e.quantity ≠ .undefined := by decide +kernel
  exact ⟨by decide +kernel, (display_reads_back _ _ n (by decide) hne hnumbers).1⟩

end ArrayCalc

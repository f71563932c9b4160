import ArrayCalc.Proofs.Sentence.Confinement
/-!
A phrase inside of a statement may be given a name.

* `conclude`: what words make of the noun that has been found on their right, the assignments that
  they open with included; `conclude_confined`: they depend on their own names only;
* `statement_append`: **a statement cut behind a verb**: the words on the right of the cut come to a
  noun, and those on its left conclude with it.  No assignment and no valence is changed by the cut,
  for a verb stands before it;
* `phrase_may_be_named`: the words on the right may be replaced by a name that is bound to what they
  come to.
-/

namespace ArrayCalc

open Lexer Evaluation

/-! ### Words with a noun on their right -/

/-- What words make of the noun on their right: the names of the assignments that they open with are
bound to what the words behind those make of it. -/
def conclude (registry : Registry) : List Token → Noun → Evaluation Noun
  | name :: symbol :: ts, right =>
    if isAssignment name symbol then do
      let v ← conclude registry ts right
      bindName name.text (.noun v)
      return v
    else scan registry (name :: symbol :: ts).reverse right
  | ts, right => scan registry ts.reverse right

lemma conclude_of_phrase (registry : Registry) {ts : List Token}
    (h : opensAssignment ts = false) : conclude registry ts = scan registry ts.reverse := by
  funext right
  match ts with
  | [] => rfl
  | [t] => rfl
  | name :: symbol :: ts =>
    have hs : isAssignment name symbol = false := h
    rw [conclude, hs, if_neg Bool.false_ne_true]

lemma conclude_of_assignment (registry : Registry) {name symbol : Token}
    (hs : isAssignment name symbol = true) (ts : List Token) (right : Noun) :
    conclude registry (name :: symbol :: ts) right = (do
      let v ← conclude registry ts right
      bindName name.text (.noun v)
      return v) := by
  rw [conclude, if_pos hs]

lemma conclude_confined {names : List String} {registry : Registry} {ts : List Token}
    (hts : Within names ts) (right : Noun) : (conclude registry ts right).Confined names := by
  induction ts using assignment_induction with
  | phrase ts hphrase =>
    rw [conclude_of_phrase registry hphrase]
    exact scan_confined (fun t ht => hts t (List.mem_reverse.mp ht)) right
  | assign name symbol ts hs ih =>
    obtain ⟨hname, htail⟩ := List.forall_mem_cons.mp hts
    rw [conclude_of_assignment registry hs]
    refine (ih (List.forall_mem_cons.mp htail).2).bind fun v => ?_
    exact (bindName_confined (hname (kinds_of_isAssignment hs).1) v).bind fun _ => confined_pure v

/-! ### A statement cut behind a verb -/

/-- Words in front that end in a verb, or no words: they neither make an assignment of the words
behind them nor take part in one. -/
lemma opensAssignment_append {front words : List Token} (hfront : headIsNoun front.reverse = false)
    (h : opensAssignment front = false) (hwords : opensAssignment words = false) :
    opensAssignment (front ++ words) = false := by
  match front with
  | [] => exact hwords
  | [t] =>
    have ht : t.kind.isNoun = false := hfront
    cases words with
    | nil => rfl
    | cons s words =>
      refine Bool.eq_false_iff.mpr fun hs => ?_
      rw [(kinds_of_isAssignment hs).1] at ht
      cases ht
  | name :: symbol :: ts => exact h

lemma headIsNoun_reverse_of_cons {t : Token} {ts : List Token}
    (h : headIsNoun (t :: ts).reverse = false) : headIsNoun ts.reverse = false := by
  rw [List.reverse_cons] at h
  cases hrev : ts.reverse with
  | nil => rfl
  | cons s rest =>
    rw [hrev] at h
    exact h

/-- **A statement cut behind a verb**: first the phrase on the right, then what the words on the
left make of its value.  By induction along the assignments at the front. -/
lemma statement_append (registry : Registry) {front words : List Token}
    (hfront : headIsNoun front.reverse = false) (hwords : words ≠ [])
    (hphrase : opensAssignment words = false) (h : front ++ words ≠ []) :
    statement registry (front ++ words) h =
      expression registry words hwords >>= conclude registry front := by
  induction front using assignment_induction with
  | phrase front hopens =>
    rw [statement_of_phrase registry h (opensAssignment_append hfront hopens hphrase),
      expression_append registry hfront hwords, conclude_of_phrase registry hopens]
  | assign name symbol front hs ih =>
    have hrest := headIsNoun_reverse_of_cons (headIsNoun_reverse_of_cons hfront)
    have hne : front ++ words ≠ [] := List.append_ne_nil_of_right_ne_nil front hwords
    show statement registry (name :: symbol :: (front ++ words)) h = _
    rw [statement_of_assignment registry hs hne, ih hrest hne, bind_assoc]
    exact congrArg _ (funext fun right => (conclude_of_assignment registry hs front right).symm)

/-! ### A phrase and its name -/

/-- A name that is bound is worth what it is bound to. -/
lemma carryOut_expression_name (registry : Registry) {t : Token} (ht : t.kind = .name)
    {env : Environment} {v : Noun} (hv : env.get? t.text = some v) :
    (expression registry [t] (List.cons_ne_nil t [])).carryOut env = (.ok v, env) := by
  have hvalue : (Phrase.noun (.name t ht)).value registry env = .ok v := by
    rw [Phrase.value, NounWord.value, hv]
  rw [← hvalue]
  exact expression_yields_value registry (.noun (.name t ht)) env

/-- **A phrase may be given a name.**  Take a statement and cut it behind a verb, so that the words
on the right are no assignment.  If these fail, the statement fails as they do.  If they come to a
noun, the statement has the same value, or fails in the same way, as when they are replaced by a
name that is bound to this noun and does not occur on the left; and all names but that one are bound
to the same nouns afterwards. -/
theorem phrase_may_be_named (registry : Registry) (front : List Token) (verb : Token)
    (hverb : verb.kind = .operator) (words : List Token) (hwords : words ≠ [])
    (hphrase : opensAssignment words = false) (env : Environment) (name : Token)
    (hname : name.kind = .name) (hfresh : name.text ∉ namesIn (front ++ [verb])) :
    (∀ f after, (statement registry words hwords).carryOut env = (.error f, after) →
      (statement registry (front ++ [verb] ++ words)
        (List.append_ne_nil_of_right_ne_nil _ hwords)).carryOut env = (.error f, env)) ∧
    (∀ v after, (statement registry words hwords).carryOut env = (.ok v, after) →
      let whole := (statement registry (front ++ [verb] ++ words)
        (List.append_ne_nil_of_right_ne_nil _ hwords)).carryOut env
      let named := (statement registry (front ++ [verb] ++ [name])
        (List.append_ne_nil_of_right_ne_nil _ (List.cons_ne_nil name []))).carryOut
          (env.set name.text v)
      whole.1 = named.1 ∧ ∀ other ≠ name.text, whole.2.get? other = named.2.get? other) := by
  have hfront : headIsNoun (front ++ [verb]).reverse = false := by
    rw [List.reverse_append, List.reverse_singleton, List.singleton_append, headIsNoun, hverb]
    rfl
  have hsteady := expression_steady registry words hwords
  rw [statement_of_phrase registry hwords hphrase,
    statement_append registry hfront hwords hphrase (List.append_ne_nil_of_right_ne_nil _ hwords),
    statement_append registry hfront (List.cons_ne_nil name []) rfl
      (List.append_ne_nil_of_right_ne_nil _ (List.cons_ne_nil name []))]
  constructor
  · intro f after hrun
    obtain rfl := hsteady.eq hrun
    exact carryOut_bind_error hrun _
  · intro v after hrun
    obtain rfl := hsteady.eq hrun
    have hvalue := carryOut_expression_name registry hname (after.get?_set_self name.text v)
    have hconfined : (conclude registry (front ++ [verb]) v).Confined (namesIn (front ++ [verb])) :=
      conclude_confined (within_namesIn (front ++ [verb])) v
    have hagree := Environment.agreeOn_set hfresh after v
    dsimp only
    rw [carryOut_bind_ok hrun, carryOut_bind_ok hvalue]
    refine ⟨hconfined.result hagree, fun other hother => ?_⟩
    by_cases hmem : other ∈ namesIn (front ++ [verb])
    · exact hconfined.agree hagree other hmem
    · rw [hconfined.kept _ other hmem, hconfined.kept _ other hmem,
        Environment.get?_set_of_ne _ _ hother]

/-- In `x =: 2 - - y` the phrase `- y` may be named `t`; and if nothing is bound to `y`, the
statement fails as `- y` does. -/
theorem named_difference :
    let x : Token := ⟨.name, "x", 0, 1, []⟩
    let gets : Token := ⟨.operator, "=:", 2, 4, []⟩
    let two : Token := ⟨.number, "2", 5, 6, ["2"]⟩
    let minus : Token := ⟨.operator, "-", 7, 8, []⟩
    let negate : Token := ⟨.operator, "-", 9, 10, []⟩
    let y : Token := ⟨.name, "y", 11, 12, []⟩
    let t : Token := ⟨.name, "t", 9, 10, []⟩
    let run := fun (ts : List Token) (h : ts ≠ []) =>
      (statement (.standard defaultLimit) ts h).carryOut
    let env := Environment.empty.set "y" (.atom .integer 1)
    let v := Noun.atom .integer (-1)
    let undefined := Failure.plain (.evaluation (.undefinedName "y" 11))
    let whole := run [x, gets, two, minus, negate, y] (by simp)
    let named := run [x, gets, two, minus, t] (by simp)
    t.text ∉ namesIn [x, gets, two, minus] ∧
    (run [negate, y] (by simp) .empty = (.error undefined, .empty) ∧
      whole .empty = (.error undefined, .empty)) ∧
    (run [negate, y] (by simp) env = (.ok v, env) ∧
      (whole env).1 = (named (env.set "t" v)).1 ∧
      ∀ other ≠ "t", (whole env).2.get? other = (named (env.set "t" v)).2.get? other) := by
  intro x gets two minus negate y t run env v undefined whole named
  have hfresh : t.text ∉ namesIn [x, gets, two, minus] := by decide
  have hfails : run [negate, y] (by simp) .empty = (.error undefined, .empty) := rfl
  have hvalue : run [negate, y] (by simp) env = (.ok v, env) := rfl
  have hnamed := phrase_may_be_named (.standard defaultLimit) [x, gets, two] minus rfl [negate, y]
    (by simp) rfl
  exact ⟨hfresh, ⟨hfails, (hnamed .empty t rfl hfresh).1 undefined .empty hfails⟩,
    hvalue, (hnamed env t rfl hfresh).2 v env hvalue⟩

end ArrayCalc

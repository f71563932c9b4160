import ArrayCalc.Primitive
import ArrayCalc.Proofs.Sentence.Evaluation
/-!
The grammar of sentences, read from the left.

A clause is `name =: clause` or a phrase, and a phrase is a noun, a verb with the phrase on its
right, or a verb between a noun and a phrase; a name and `=:` at the front of a clause always
assign, and `=:` anywhere else is a verb like any other.

* `NounWord`, `VerbWord`, `Phrase`, `Clause`: the trees of the grammar, and their `words`;
  `Clause.words_injective`: words spell at most one clause;
* `Phrase.value`, `Clause.run`: what a tree comes to, by recursion on it: the phrase on the right
  first, then the rule of the verb, then the noun on the left, and only then the rule is applied;
* `expression_yields_value`, `exists_phrase_of_expression_ok`: the scan from the right finds the
  value of a phrase, and succeeds on nothing but phrases;
* `statement_follows_grammar`: **the scan is the recursive evaluator**, failures included, and it
  fails on whatever the grammar does not derive.
-/

namespace ArrayCalc

open Lexer Evaluation

/-! ### Words of a phrase -/

/-- A word that stands for a noun. -/
inductive NounWord where
  | numeral (t : Token) (h : t.kind = .number)
  | name (t : Token) (h : t.kind = .name)

namespace NounWord

/-- The word itself. -/
def token : NounWord → Token
  | numeral t _ => t
  | name t _ => t

/-- The noun that a word stands for where names mean what the environment binds them to. -/
def value (env : Environment) : NounWord → Except Failure Noun
  | numeral t _ => numberLiteral t
  | name t _ =>
    match env.get? t.text with
    | some n => .ok n
    | none => .error (.plain (.evaluation (.undefinedName t.text t.pos)))

lemma isNoun_token (n : NounWord) : n.token.kind.isNoun = true := by
  cases n with
  | numeral t h => simp only [token, h, TokenKind.isNoun]
  | name t h => simp only [token, h, TokenKind.isNoun]

lemma token_injective {m n : NounWord} (h : m.token = n.token) : m = n := by
  cases m with
  | numeral s hs =>
    cases n with
    | numeral t ht => cases h; rfl
    | name t ht => cases h; rw [hs] at ht; cases ht
  | name s hs =>
    cases n with
    | numeral t ht => cases h; rw [hs] at ht; cases ht
    | name t ht => cases h; rfl

lemma nounOf_yields (n : NounWord) (env : Environment) :
    (nounOf n.token).Yields env (n.value env) := by
  cases n with
  | numeral t h =>
    simp only [token, value, nounOf, h]
    exact yields_mk _ env
  | name t h =>
    simp only [token, value, nounOf, h]
    refine (carryOut_bind_ok (carryOut_get env) _).trans ?_
    cases env.get? t.text with
    | some n => rfl
    | none => rfl

/-- Only words for nouns have a value. -/
lemma exists_of_nounOf_ok {t : Token} {env after : Environment} {v : Noun}
    (h : (nounOf t).carryOut env = (.ok v, after)) : ∃ n : NounWord, n.token = t := by
  cases hk : t.kind with
  | number => exact ⟨numeral t hk, rfl⟩
  | name => exact ⟨name t hk, rfl⟩
  | operator | string | eol | unknown =>
    rw [nounOf, hk] at h
    cases h

end NounWord

/-- A word that stands for a verb. -/
abbrev VerbWord := { t : Token // t.kind = .operator }

namespace VerbWord

lemma isNoun_eq_false (v : VerbWord) : v.1.kind.isNoun = false := by
  rw [v.2]
  rfl

/-- The rule of a verb for one noun, looked up and applied. -/
def monad (registry : Registry) (v : VerbWord) (right : Noun) : Except Failure Noun := do
  let f ← (registry.monad v.1.text).mapError .plain
  (f right).mapError (failureOf .monadic v.1)

/-- The rule of a verb for two nouns, looked up before the noun on the left is found, and then
applied. -/
def dyad (registry : Registry) (env : Environment) (left : NounWord) (v : VerbWord)
    (right : Noun) : Except Failure Noun := do
  let f ← (registry.dyad v.1.text).mapError .plain
  let l ← left.value env
  (f.apply l right).mapError (failureOf .dyadic v.1)

lemma monadStep_yields (registry : Registry) (v : VerbWord) (right : Noun) (env : Environment) :
    (monadStep registry v.1 right).Yields env (v.monad registry right) :=
  (yields_look _ env).bind fun f => yields_apply _ _ (f right) env

lemma dyadStep_yields (registry : Registry) (left : NounWord) (v : VerbWord) (right : Noun)
    (env : Environment) :
    (dyadStep registry left.token v.1 right).Yields env (v.dyad registry env left right) :=
  (yields_look _ env).bind fun f =>
    (left.nounOf_yields env).bind fun l => yields_apply _ _ (f.apply l right) env

end VerbWord

/-! ### Phrases -/

/-- A noun, a verb with what stands on its right, or a verb between a noun and what stands on its
right. -/
inductive Phrase where
  | noun (n : NounWord)
  | monad (verb : VerbWord) (operand : Phrase)
  | dyad (left : NounWord) (verb : VerbWord) (operand : Phrase)

namespace Phrase

/-- The words of a phrase, from left to right. -/
def words : Phrase → List Token
  | noun n => [n.token]
  | monad v p => v.1 :: p.words
  | dyad l v p => l.token :: v.1 :: p.words

/-- The value of a phrase: what stands on the right of a verb comes first. -/
def value (registry : Registry) (env : Environment) : Phrase → Except Failure Noun
  | noun n => n.value env
  | monad v p => do v.monad registry (← p.value registry env)
  | dyad l v p => do v.dyad registry env l (← p.value registry env)

lemma words_ne_nil (p : Phrase) : p.words ≠ [] := by
  cases p <;> exact List.cons_ne_nil _ _

/-- Words spell at most one phrase: its second word, if there is one, tells the productions
apart. -/
lemma words_injective {p q : Phrase} (h : p.words = q.words) : p = q := by
  have clash {n : NounWord} {v : VerbWord} (e : n.token = v.1) : False := by
    have hn := n.isNoun_token
    rw [e, v.isNoun_eq_false] at hn
    cases hn
  induction p generalizing q with
  | noun m =>
    cases q with
    | noun n => rw [NounWord.token_injective (List.cons.inj h).1]
    | monad w q => exact (clash (List.cons.inj h).1).elim
    | dyad n w q => cases (List.cons.inj h).2
  | monad v p ih =>
    cases q with
    | noun n => exact (clash (List.cons.inj h).1.symm).elim
    | monad w q => rw [Subtype.ext (List.cons.inj h).1, ih (List.cons.inj h).2]
    | dyad n w q => exact (clash (List.cons.inj h).1.symm).elim
  | dyad m v p ih =>
    cases q with
    | noun n => cases (List.cons.inj h).2
    | monad w q => exact (clash (List.cons.inj h).1).elim
    | dyad n w q =>
      obtain ⟨hm, ht⟩ := List.cons.inj h
      obtain ⟨hv, hp⟩ := List.cons.inj ht
      rw [NounWord.token_injective hm, Subtype.ext hv, ih hp]

end Phrase

/-! ### The scan and the phrases -/

/-- The words on the right of an expression are read first, and the scan goes on with the rest. -/
lemma expression_append (registry : Registry) {xs ys : List Token}
    (hxs : headIsNoun xs.reverse = false) (hys : ys ≠ []) (h : xs ++ ys ≠ []) :
    expression registry (xs ++ ys) h = expression registry ys hys >>= scan registry xs.reverse := by
  rw [expression, expression, bind_assoc, List.getLast_append_of_ne_nil h hys,
    List.dropLast_append_of_ne_nil hys, List.reverse_append]
  exact congrArg _ (funext fun right => scan_append registry hxs _ right)

/-- The scan finds the value of a phrase, or the first failure on the way to it. -/
lemma expression_yields_value (registry : Registry) (p : Phrase) (env : Environment) :
    (expression registry p.words p.words_ne_nil).Yields env (p.value registry env) := by
  induction p with
  | noun n =>
    have hsingle : expression registry (Phrase.noun n).words (List.cons_ne_nil _ _) =
        nounOf n.token >>= scan registry [] := rfl
    rw [hsingle, scan_nil, bind_pure]
    exact n.nounOf_yields env
  | monad v p ih =>
    have hv : headIsNoun [v.1].reverse = false := v.isNoun_eq_false
    have happ := expression_append registry hv p.words_ne_nil (List.cons_ne_nil v.1 p.words)
    have hstep : scan registry [v.1].reverse = monadStep registry v.1 := by
      funext right
      rw [List.reverse_singleton, scan_monad registry v.2 rfl, scan_nil, bind_pure]
    rw [hstep] at happ
    exact happ ▸ ih.bind fun right => v.monadStep_yields registry right env
  | dyad l v p ih =>
    have hv : headIsNoun [l.token, v.1].reverse = false := v.isNoun_eq_false
    have happ := expression_append registry hv p.words_ne_nil
      (List.cons_ne_nil l.token (v.1 :: p.words))
    have hstep : scan registry [l.token, v.1].reverse = dyadStep registry l.token v.1 := by
      funext right
      have hrev : [l.token, v.1].reverse = [v.1, l.token] := rfl
      rw [hrev, scan_dyad registry v.2 l.isNoun_token, scan_nil, bind_pure]
    rw [hstep] at happ
    exact happ ▸ ih.bind fun right => v.dyadStep_yields registry l right env

/-- Where the scan succeeds it has made a phrase of every word, whatever phrase it started from. -/
lemma exists_phrase_of_scan_ok (registry : Registry) {ts : List Token} {right v : Noun}
    {env after : Environment} (h : (scan registry ts right).carryOut env = (.ok v, after))
    (p : Phrase) : ∃ q : Phrase, q.words = ts.reverse ++ p.words := by
  induction ts using scan_induction generalizing right env p with
  | nil => exact ⟨p, rfl⟩
  | nonsensical t ts ht =>
    rw [scan_nonsensical registry ht] at h
    cases h
  | monad t ts ht hts ih =>
    rw [scan_monad registry ht hts] at h
    obtain ⟨r, next, -, hr⟩ := carryOut_bind_eq_ok h
    obtain ⟨q, hq⟩ := ih hr (.monad ⟨t, ht⟩ p)
    refine ⟨q, ?_⟩
    rw [hq, List.reverse_cons, List.append_assoc]
    rfl
  | dyad t l ts ht hl ih =>
    rw [scan_dyad registry ht hl] at h
    obtain ⟨r, next, hstep, hr⟩ := carryOut_bind_eq_ok h
    obtain ⟨f, next', -, hrest⟩ := carryOut_bind_eq_ok hstep
    obtain ⟨left, next'', hleft, -⟩ := carryOut_bind_eq_ok hrest
    obtain ⟨n, rfl⟩ := NounWord.exists_of_nounOf_ok hleft
    obtain ⟨q, hq⟩ := ih hr (.dyad n ⟨t, ht⟩ p)
    refine ⟨q, ?_⟩
    rw [hq, List.reverse_cons, List.reverse_cons, List.append_assoc, List.append_assoc]
    rfl

/-- An expression succeeds only if its words spell a phrase. -/
lemma exists_phrase_of_expression_ok {registry : Registry} {ts : List Token} {h : ts ≠ []}
    {v : Noun} {env after : Environment}
    (hok : (expression registry ts h).carryOut env = (.ok v, after)) :
    ∃ p : Phrase, p.words = ts := by
  obtain ⟨right, next, hlast, hscan⟩ := carryOut_bind_eq_ok hok
  obtain ⟨n, hn⟩ := NounWord.exists_of_nounOf_ok hlast
  obtain ⟨p, hp⟩ := exists_phrase_of_scan_ok registry hscan (.noun n)
  refine ⟨p, ?_⟩
  calc p.words = ts.dropLast ++ [ts.getLast h] := by
        rw [hp, List.reverse_reverse, ← hn]
        rfl
    _ = ts := List.dropLast_concat_getLast h

/-! ### Clauses -/

/-- A phrase that does not look like an assignment, or the assignment of a clause to a name. -/
inductive Clause where
  | phrase (p : Phrase) (h : opensAssignment p.words = false)
  | assign (name symbol : Token) (h : isAssignment name symbol = true) (rest : Clause)

namespace Clause

/-- The words of a clause, from left to right. -/
def words : Clause → List Token
  | phrase p _ => p.words
  | assign name symbol _ rest => name :: symbol :: rest.words

/-- The value of a clause and the environment afterwards: a name is bound once the rest of the
clause has been run. -/
def run (registry : Registry) (env : Environment) : Clause → Except Failure Noun × Environment
  | phrase p _ => (p.value registry env, env)
  | assign name _ _ rest =>
    match rest.run registry env with
    | (.ok v, next) => (.ok v, next.set name.text v)
    | (.error f, next) => (.error f, next)

lemma words_ne_nil (c : Clause) : c.words ≠ [] := by
  cases c with
  | phrase p h => exact p.words_ne_nil
  | assign name symbol h rest => exact List.cons_ne_nil _ _

lemma words_injective {c d : Clause} (h : c.words = d.words) : c = d := by
  induction c generalizing d with
  | phrase p hp =>
    cases d with
    | phrase q hq => cases Phrase.words_injective h; rfl
    | assign name symbol hs d =>
      have hw : p.words = name :: symbol :: d.words := h
      rw [hw, opensAssignment, hs] at hp
      cases hp
  | assign name symbol hs c ih =>
    cases d with
    | phrase q hq =>
      have hw : q.words = name :: symbol :: c.words := h.symm
      rw [hw, opensAssignment, hs] at hq
      cases hq
    | assign name' symbol' hs' d =>
      obtain ⟨rfl, ht⟩ := List.cons.inj h
      obtain ⟨rfl, hr⟩ := List.cons.inj ht
      rw [ih hr]

/-- In a clause a noun at the front is followed by a verb. -/
lemma operator_of_isNoun {c : Clause} {s t : Token} {ts : List Token}
    (h : c.words = s :: t :: ts) (hs : s.kind.isNoun = true) : t.kind = .operator := by
  cases c with
  | phrase p hp =>
    cases p with
    | noun n => cases (List.cons.inj h).2
    | monad v p =>
      have hv := v.isNoun_eq_false
      rw [(List.cons.inj h).1, hs] at hv
      cases hv
    | dyad l v p =>
      rw [← (List.cons.inj (List.cons.inj h).2).1]
      exact v.2
  | assign name symbol ha rest =>
    rw [← (List.cons.inj (List.cons.inj h).2).1]
    exact (kinds_of_isAssignment ha).2

end Clause

/-- A statement that is spelled like a clause runs like it. -/
lemma carryOut_statement (registry : Registry) (c : Clause) (env : Environment) :
    (statement registry c.words c.words_ne_nil).carryOut env = c.run registry env := by
  induction c with
  | phrase p h =>
    show (statement registry p.words p.words_ne_nil).carryOut env = (p.value registry env, env)
    rw [statement_of_phrase registry p.words_ne_nil h]
    exact expression_yields_value registry p env
  | assign name symbol hs rest ih =>
    show (statement registry (name :: symbol :: rest.words) (List.cons_ne_nil _ _)).carryOut env = _
    rw [statement_of_assignment registry hs rest.words_ne_nil, Clause.run]
    generalize rest.run registry env = p at ih
    obtain ⟨r, next⟩ := p
    cases r with
    | ok v => rw [carryOut_bind_ok ih, carryOut_bind_ok (carryOut_bindName _ v next), carryOut_pure]
    | error f => rw [carryOut_bind_error ih]

/-- A statement succeeds only if its words spell a clause. -/
lemma exists_clause_of_statement_ok {registry : Registry} {ts : List Token} {h : ts ≠ []}
    {env after : Environment} {v : Noun}
    (hok : (statement registry ts h).carryOut env = (.ok v, after)) :
    ∃ c : Clause, c.words = ts := by
  induction ts, h using statement_induction generalizing after v with
  | phrase ts h hphrase =>
    rw [statement_of_phrase registry h hphrase] at hok
    obtain ⟨p, hp⟩ := exists_phrase_of_expression_ok hok
    exact ⟨.phrase p (hp ▸ hphrase), hp⟩
  | nothing name symbol h hs =>
    rw [statement_of_nothing registry hs] at hok
    cases hok
  | assign name symbol ts h hts hs ih =>
    rw [statement_of_assignment registry hs hts] at hok
    obtain ⟨w, next, hw, -⟩ := carryOut_bind_eq_ok hok
    obtain ⟨c, hc⟩ := ih hw
    exact ⟨.assign name symbol hs c, congrArg (name :: symbol :: ·) hc⟩

/-- **The scan from the right is the evaluator of the grammar.**  Words spell at most one clause.
A statement that spells one comes to the value and the environment of the clause, or fails as the
clause does; a statement that spells none always fails. -/
theorem statement_follows_grammar (registry : Registry) (ts : List Token) (h : ts ≠ []) :
    (∀ c d : Clause, c.words = ts → d.words = ts → c = d) ∧
    (∀ c : Clause, c.words = ts → ∀ env,
      (statement registry ts h).carryOut env = c.run registry env) ∧
    ((¬ ∃ c : Clause, c.words = ts) → ∀ env, ∃ f,
      (statement registry ts h).carryOut env = (.error f, env)) := by
  refine ⟨fun c d hc hd => Clause.words_injective (hc.trans hd.symm), ?_, ?_⟩
  · rintro c rfl env
    exact carryOut_statement registry c env
  · intro hnone env
    cases hrun : (statement registry ts h).carryOut env with
    | mk r after =>
      cases r with
      | ok v => exact absurd (exists_clause_of_statement_ok hrun) hnone
      | error f => exact ⟨f, by rw [carryOut_statement_error hrun]⟩

/-- The clause `x =: 1 - y` where nothing is bound, and the words `x y`, which are no clause. -/
theorem follows_grammar_difference :
    let x : Token := ⟨.name, "x", 0, 1, []⟩
    let gets : Token := ⟨.operator, "=:", 2, 4, []⟩
    let one : Token := ⟨.number, "1", 5, 6, ["1"]⟩
    let minus : Token := ⟨.operator, "-", 7, 8, []⟩
    let y : Token := ⟨.name, "y", 9, 10, []⟩
    let difference : Clause :=
      .assign x gets rfl (.phrase (.dyad (.numeral one rfl) ⟨minus, rfl⟩ (.noun (.name y rfl))) rfl)
    difference.words = [x, gets, one, minus, y] ∧
    (statement (.standard defaultLimit) [x, gets, one, minus, y] (by simp)).carryOut .empty =
      difference.run (.standard defaultLimit) .empty ∧
    (¬ ∃ c : Clause, c.words = [x, y]) ∧
    ∃ f, (statement (.standard defaultLimit) [x, y] (by simp)).carryOut .empty =
      (.error f, .empty) := by
  intro x gets one minus y difference
  have hnone : ¬ ∃ c : Clause, c.words = [x, y] := by
    rintro ⟨c, hc⟩
    cases Clause.operator_of_isNoun hc rfl
  exact ⟨rfl, (statement_follows_grammar _ _ _).2.1 difference rfl .empty, hnone,
    (statement_follows_grammar _ _ _).2.2 hnone .empty⟩

end ArrayCalc

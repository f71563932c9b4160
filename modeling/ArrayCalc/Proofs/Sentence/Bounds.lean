import ArrayCalc.Proofs.Numeral.Lists
import ArrayCalc.Proofs.Sentence.Sessions
import ArrayCalc.Proofs.Verb.Bounds
/-!
How large the nouns of a session can get.

A noun comes from a numeral word, which lists its elements one by one; from a name; from a verb that
gives it the shape of an operand; or from the verb that counts up, which has a limit.

* `mostParts`: the largest number of parts of a numeral among some words;
* `Environment.Within`: all bound nouns are within a bound;
* `numberLiteral_within`, `Phrase.value_within`, `statement_within`: the words of a statement bound
  its value, if the nouns are bounded that its names stand for;
* `Moment.Chain.within`: so do the words of statements one after the other;
* `session_within_limit_or_literals`: **every noun of a session is within the limit or the longest
  numeral so far**.
-/

namespace ArrayCalc

open Lexer

variable {limit bound : Nat} {env : Environment}

/-! ### Numerals -/

/-- The largest number of parts of a numeral word. -/
def mostParts : List Token → Nat
  | [] => 0
  | t :: ts => max (if t.kind = .number then t.parts.length else 0) (mostParts ts)

lemma le_mostParts {t : Token} {ts : List Token} (ht : t ∈ ts) (hk : t.kind = .number) :
    t.parts.length ≤ mostParts ts := by
  induction ts with
  | nil => cases ht
  | cons s ts ih =>
    rw [mostParts]
    rcases List.mem_cons.mp ht with rfl | hmem
    · rw [if_pos hk]
      exact Nat.le_max_left _ _
    · exact Nat.le_trans (ih hmem) (Nat.le_max_right _ _)

lemma mostParts_append (s t : List Token) :
    mostParts (s ++ t) = max (mostParts s) (mostParts t) := by
  induction s with
  | nil => exact (Nat.zero_max _).symm
  | cons _ s ih => rw [List.cons_append, mostParts, mostParts, ih, Nat.max_assoc]

/-- A numeral word has as many elements as parts. -/
lemma numberLiteral_within {t : Token} {n : Noun} (hk : t.kind = .number)
    (h : numberLiteral t = .ok n) : n.Within t.parts.length := by
  rw [numberLiteral_eq hk, map_eq_ok_iff] at h
  obtain ⟨es, hes, rfl⟩ := h
  rw [(mapM_eq_ok_iff.1 hes).length_eq, Noun.within_iff, shape_numeralNoun]
  split
  · rename_i hone
    exact ⟨Nat.le_of_eq hone.symm, List.forall_mem_nil _⟩
  · exact ⟨Nat.le_of_eq (Nat.mul_one _), List.forall_mem_singleton.mpr (Nat.le_refl _)⟩

/-! ### Phrases -/

/-- All nouns that names are bound to are within a bound. -/
def Environment.Within (bound : Nat) (env : Environment) : Prop :=
  ∀ name n, env.get? name = some n → n.Within bound

lemma Environment.within_empty : empty.Within bound := nofun

lemma Environment.Within.setAll (h : env.Within bound) {v : Noun} (hv : v.Within bound)
    (names : List String) : (env.setAll names v).Within bound := by
  intro name n hn
  rw [get?_setAll] at hn
  split at hn
  · cases hn
    exact hv
  · exact h name n hn

lemma NounWord.value_within {w : NounWord} {n : Noun} (henv : env.Within bound)
    (hparts : mostParts [w.token] ≤ bound) (h : w.value env = .ok n) : n.Within bound := by
  cases w with
  | numeral t hk =>
    exact (numberLiteral_within hk h).mono
      (Nat.le_trans (le_mostParts (List.mem_singleton_self t) hk) hparts)
  | name t hk =>
    rw [value] at h
    split at h
    · rename_i m hm
      cases h
      exact henv _ _ hm
    · cases h

lemma VerbWord.monad_within {v : VerbWord} {right n : Noun} (hlimit : limit ≤ bound)
    (hright : right.Within bound) (h : v.monad (.standard limit) right = .ok n) :
    n.Within bound := by
  obtain ⟨f, hf, h⟩ := exists_ok_of_bind_eq_ok h
  have hbounded := Registry.bounded_of_monad (eq_ok_of_mapError_eq_ok hf)
  rcases hbounded right n (eq_ok_of_mapError_eq_ok h) with hshape | hn
  · exact hright.of_shape hshape
  · exact hn.mono hlimit

lemma VerbWord.dyad_within {w : NounWord} {v : VerbWord} {right n : Noun} (henv : env.Within bound)
    (hparts : mostParts [w.token] ≤ bound) (hright : right.Within bound)
    (h : v.dyad (.standard limit) env w right = .ok n) : n.Within bound := by
  obtain ⟨d, hd, h⟩ := exists_ok_of_bind_eq_ok h
  obtain ⟨left, hleft, h⟩ := exists_ok_of_bind_eq_ok h
  have hbounded := Registry.bounded_of_dyad (eq_ok_of_mapError_eq_ok hd)
  rcases hbounded left right n (eq_ok_of_mapError_eq_ok h) with hshape | hshape
  · exact (w.value_within henv hparts hleft).of_shape hshape
  · exact hright.of_shape hshape

/-- The value of a phrase is within the limit, its longest numeral, or the nouns that its names
stand for. -/
lemma Phrase.value_within {p : Phrase} {n : Noun} (hlimit : limit ≤ bound)
    (henv : env.Within bound) (hparts : mostParts p.words ≤ bound)
    (h : p.value (.standard limit) env = .ok n) : n.Within bound := by
  induction p generalizing n with
  | noun w => exact w.value_within henv hparts h
  | monad v p ih =>
    have hwords : mostParts ([v.1] ++ p.words) ≤ bound := hparts
    rw [mostParts_append, Nat.max_le] at hwords
    obtain ⟨right, hp, h⟩ := exists_ok_of_bind_eq_ok h
    exact v.monad_within hlimit (ih hwords.2 hp) h
  | dyad w v p ih =>
    have hwords : mostParts ([w.token] ++ ([v.1] ++ p.words)) ≤ bound := hparts
    rw [mostParts_append, mostParts_append, Nat.max_le, Nat.max_le] at hwords
    obtain ⟨right, hp, h⟩ := exists_ok_of_bind_eq_ok h
    exact v.dyad_within henv hwords.1 (ih hwords.2.2 hp) h

/-! ### Statements and sessions -/

/-- A statement ends with the words behind its assignments. -/
lemma mostParts_assignedWords (ts : List Token) : mostParts (assignedWords ts) ≤ mostParts ts := by
  induction ts using assignedWords.induct with
  | case1 name symbol ts hs ih =>
    rw [assignedWords, if_pos hs]
    have hwords := mostParts_append [name, symbol] ts
    rw [List.cons_append, List.singleton_append] at hwords
    omega
  | case2 name symbol ts hs =>
    have hsame : assignedWords (name :: symbol :: ts) = name :: symbol :: ts := by
      rw [assignedWords, if_neg hs]
    exact Nat.le_of_eq (congrArg mostParts hsame)
  | case3 ts hts =>
    have hsame : assignedWords ts = ts := by
      rcases ts with _ | ⟨name, _ | ⟨symbol, ts⟩⟩
      · rfl
      · rfl
      · exact (hts name symbol ts rfl).elim
    exact Nat.le_of_eq (congrArg mostParts hsame)

/-- A statement that succeeds keeps to a bound. -/
lemma statement_within {ts : List Token} {hne : ts ≠ []} {next : Environment} {v : Noun}
    (hlimit : limit ≤ bound) (henv : env.Within bound) (hparts : mostParts ts ≤ bound)
    (h : (statement (.standard limit) ts hne).carryOut env = (.ok v, next)) :
    v.Within bound ∧ next.Within bound := by
  have hassigns := statement_assigns h
  obtain ⟨p, hp, hvalue⟩ := hassigns.read
  have hwords : mostParts p.words ≤ bound :=
    hp ▸ Nat.le_trans (mostParts_assignedWords ts) hparts
  have hv := p.value_within hlimit henv hwords hvalue
  exact ⟨hv, hassigns.order ▸ henv.setAll hv _⟩

/-- Statements one after the other keep to a bound. -/
lemma Moment.Chain.within {ms : List Moment} {after : Environment}
    (h : Chain (.standard limit) env ms after) (hlimit : limit ≤ bound) (henv : env.Within bound)
    (hparts : mostParts (ms.flatMap words) ≤ bound) :
    after.Within bound ∧ ∀ m ∈ ms, m.value.Within bound := by
  induction h with
  | nil env => exact ⟨henv, List.forall_mem_nil _⟩
  | @cons s v env next after ms hs _ ih =>
    rw [List.flatMap_cons, mostParts_append, Nat.max_le] at hparts
    obtain ⟨hv, hnext⟩ := statement_within hlimit henv hparts.1 hs
    obtain ⟨hafter, hms⟩ := ih hnext hparts.2
    exact ⟨hafter, List.forall_mem_cons.mpr ⟨hv, hms⟩⟩

/-- **No noun of a session outgrows both the limit and the longest numeral so far**, where verbs are
the primitive ones and nothing is bound at first.  At every moment of a session this holds of what a
statement has come to and of all nouns that are bound after it, and after every source, whether or
not it fails, of what it has come to and of all nouns that are bound then; the numerals are those of
the statements that have succeeded up to there.  The verb that counts up keeps to the limit
alone. -/
theorem session_within_limit_or_literals (limit : Nat) :
    (∀ sources done now rest, moments (.standard limit) sources .empty = done ++ now :: rest →
      let bound := max limit (mostParts ((done ++ [now]).flatMap Moment.words))
      now.value.Within bound ∧ now.after.Within bound) ∧
    (∀ sources source r after,
      (evaluate (.standard limit) source).carryOut
        (environmentAfter (.standard limit) sources .empty) = (r, after) →
      let all := moments (.standard limit) (sources ++ [source]) .empty
      let bound := max limit (mostParts (all.flatMap Moment.words))
      (∀ n, r = .ok (some n) → n.Within bound) ∧ after.Within bound) ∧
    ∀ f n r, (Registry.standard limit).monad "i." = .ok f → f n = .ok r → r.Within limit := by
  refine ⟨?moment, ?source, ?counting⟩
  case moment =>
    intro sources done now rest h bound
    have hchain := chain_moments (.standard limit) sources .empty
    rw [h] at hchain
    obtain ⟨hafter, hvalues⟩ := hchain.upTo.within (Nat.le_max_left _ _)
      Environment.within_empty (Nat.le_max_right _ _)
    exact ⟨hvalues now (List.mem_append_right _ (List.mem_singleton_self now)), hafter⟩
  case source =>
    intro sources source r after h all bound
    obtain ⟨hchain, hvalue⟩ := chain_sourceMoments h
    have hmoments : moments (.standard limit) (sources ++ [source]) .empty =
        moments (.standard limit) sources .empty ++ sourceMoments (.standard limit) source
          (environmentAfter (.standard limit) sources .empty) := by
      rw [moments_append, moments, moments, List.append_nil]
    have hall := (chain_moments (.standard limit) sources .empty).append hchain
    rw [← hmoments] at hall
    obtain ⟨hafter, hvalues⟩ := hall.within (Nat.le_max_left _ _)
      Environment.within_empty (Nat.le_max_right limit _)
    refine ⟨fun n hn => ?_, hafter⟩
    obtain ⟨m, hm, rfl⟩ := hvalue n hn
    exact hvalues m (hmoments ▸ List.mem_append_right _ hm)
  case counting =>
    rintro f n r ⟨⟩ hr
    exact Primitive.within_iota hr

/-- With a limit of two elements, nine numbers cannot be counted up; but three can be written down
and bound. -/
theorem within_limit_or_literals_list :
    (∃ now, moments (.standard 2) ["i. 9", "a =: 1 2 3"] .empty = [now] ∧
      now.value.Within 3 ∧ now.after.Within 3) ∧
    (∃ n after, (evaluate (.standard 2) "a =: 1 2 3").carryOut
        (environmentAfter (.standard 2) ["i. 9"] .empty) = (.ok (some n), after) ∧
      n.Within 3 ∧ after.Within 3) ∧
    ∃ f n, (Registry.standard 2).monad "i." = .ok f ∧ f (.atom .integer 2) = .ok n ∧
      n.Within 2 := by
  have hcount : tokenize "i. 9" = .ok [⟨.operator, "i.", 0, 2, []⟩, ⟨.number, "9", 3, 4, ["9"]⟩,
      ⟨.eol, "", 4, 4, []⟩] := rfl
  have hlist : tokenize "a =: 1 2 3" = .ok [⟨.name, "a", 0, 1, []⟩, ⟨.operator, "=:", 2, 4, []⟩,
      ⟨.number, "1 2 3", 5, 10, ["1", "2", "3"]⟩, ⟨.eol, "", 10, 10, []⟩] := rfl
  have hmoments : ∃ now, moments (.standard 2) ["i. 9", "a =: 1 2 3"] .empty = [now] ∧
      mostParts now.words = 3 := by
    rw [moments, moments, evaluate_of_tokens hcount, sourceMoments, sourceMoments, hcount, hlist]
    exact ⟨_, rfl, rfl⟩
  have hbound : ∃ n after, (evaluate (.standard 2) "a =: 1 2 3").carryOut
      (environmentAfter (.standard 2) ["i. 9"] .empty) = (.ok (some n), after) := by
    rw [evaluate_of_tokens hlist]
    exact ⟨_, _, rfl⟩
  obtain ⟨now, hnow, hparts⟩ := hmoments
  obtain ⟨n, after, hrun⟩ := hbound
  obtain ⟨hmoment, hsource, hcounting⟩ := session_within_limit_or_literals 2
  have hthree : max 2 (mostParts ([now].flatMap Moment.words)) = 3 := by
    rw [List.flatMap_singleton, hparts]
    rfl
  have hat := hmoment _ [] now [] hnow
  have hafter := hsource ["i. 9"] "a =: 1 2 3" _ _ hrun
  rw [List.nil_append, hthree] at hat
  simp only [List.singleton_append, hnow, hthree] at hafter
  exact ⟨⟨now, hnow, hat⟩, ⟨n, after, hrun, hafter.1 n rfl, hafter.2⟩, _, _, rfl, rfl,
    hcounting _ (.atom .integer 2) _ rfl rfl⟩

end ArrayCalc

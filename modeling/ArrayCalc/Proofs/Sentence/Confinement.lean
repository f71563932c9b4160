import ArrayCalc.Proofs.Sentence.Atomicity
/-!
A source depends on the names that stand in it, and on no others.

* `namesIn`, `sourceNames`: the names among words, and among the words of a source;
* `Environment.AgreeOn`: two environments that do not differ in given names;
* `Evaluation.Confined`: an evaluation that reads and binds none but given names, as a statement
  about two runs side by side, and how this carries over to steps one after the other;
* `nounOf_confined`, `bindName_confined`: the two steps that touch the environment, and from them,
  along the scan, expressions, statements and lines;
* `evaluate_depends_on_names`: **two environments that agree on the names of a source are the same
  to it**, and it leaves all other names alone.
-/

namespace ArrayCalc

open Lexer

/-! ### Names among words -/

/-- The names among words, in order. -/
def namesIn (ts : List Token) : List String := (ts.filter (·.kind = .name)).map Token.text

/-- The names among the words of a source; there are none if it cannot be cut into words. -/
def sourceNames (source : String) : List String :=
  match tokenize source with
  | .ok ts => namesIn ts
  | .error _ => []

lemma mem_namesIn {ts : List Token} {name : String} :
    name ∈ namesIn ts ↔ ∃ t ∈ ts, t.kind = .name ∧ t.text = name := by
  simp only [namesIn, List.mem_map, List.mem_filter, decide_eq_true_eq, and_assoc]

/-- All names among the words are of these. -/
def Within (names : List String) (ts : List Token) : Prop :=
  ∀ t ∈ ts, t.kind = .name → t.text ∈ names

lemma within_namesIn (ts : List Token) : Within (namesIn ts) ts :=
  fun t ht hk => mem_namesIn.mpr ⟨t, ht, hk, rfl⟩

/-! ### Two environments -/

/-- Each of the names is bound to one noun in both environments, or bound in neither. -/
def Environment.AgreeOn (names : List String) (env env' : Environment) : Prop :=
  ∀ name ∈ names, env.get? name = env'.get? name

/-- Binding a name alike in both keeps them in agreement. -/
lemma Environment.AgreeOn.set {names : List String} {env env' : Environment}
    (h : env.AgreeOn names env') (name : String) (v : Noun) :
    (env.set name v).AgreeOn names (env'.set name v) := by
  intro other hother
  rw [get?_set, get?_set, h other hother]

/-- A name that is not among the names may be bound to anything. -/
lemma Environment.agreeOn_set {names : List String} {name : String} (h : name ∉ names)
    (env : Environment) (v : Noun) : env.AgreeOn names (env.set name v) := by
  intro other hother
  exact (env.get?_set_of_ne v (ne_of_mem_of_not_mem hother h)).symm

/-! ### Evaluations side by side -/

namespace Evaluation

variable {α β : Type} {names : List String}

/-- Two environments that agree on the names are the same to the evaluation, and they agree on them
afterwards; the other names are left alone. -/
structure Confined (names : List String) (e : Evaluation α) : Prop where
  result : ∀ {env env' : Environment}, env.AgreeOn names env' →
    (e.carryOut env).1 = (e.carryOut env').1
  agree : ∀ {env env' : Environment}, env.AgreeOn names env' →
    (e.carryOut env).2.AgreeOn names (e.carryOut env').2
  kept : ∀ (env : Environment), ∀ name ∉ names, (e.carryOut env).2.get? name = env.get? name

/-- What never changes the environment is confined to the names that its result depends on. -/
lemma Steady.confined {e : Evaluation α} (he : e.Steady)
    (hresult : ∀ {env env' : Environment}, env.AgreeOn names env' →
      (e.carryOut env).1 = (e.carryOut env').1) : e.Confined names := by
  have hafter : ∀ env, (e.carryOut env).2 = env := fun env => he.eq rfl
  refine ⟨hresult, fun {env env'} h => ?_, fun env name _ => ?_⟩
  · rw [hafter, hafter]
    exact h
  · rw [hafter]

/-- A result that does not touch the environment. -/
lemma confined_mk (r : Except Failure α) : Confined names (ExceptT.mk (pure r)) :=
  Steady.confined (fun env => ⟨r, yields_mk r env⟩) fun _ => rfl

lemma confined_pure (a : α) : (pure a : Evaluation α).Confined names := confined_mk (.ok a)

lemma confined_throw (f : Failure) : (throw f : Evaluation α).Confined names :=
  confined_mk (.error f)

/-- Steps one after the other are confined to what each of them is confined to. -/
lemma Confined.bind {e : Evaluation α} {k : α → Evaluation β} (he : e.Confined names)
    (hk : ∀ a, (k a).Confined names) : (e >>= k).Confined names := by
  -- a step that fails ends the run; one that succeeds hands on environments that still agree
  have hrun : ∀ {env env' : Environment}, env.AgreeOn names env' →
      ((e >>= k).carryOut env).1 = ((e >>= k).carryOut env').1 ∧
        ((e >>= k).carryOut env).2.AgreeOn names ((e >>= k).carryOut env').2 := by
    intro env env' h
    have hresult := he.result h
    have hagree := he.agree h
    rw [carryOut_bind, carryOut_bind]
    generalize e.carryOut env = p at hresult hagree
    generalize e.carryOut env' = p' at hresult hagree
    obtain ⟨r, next⟩ := p
    obtain ⟨r', next'⟩ := p'
    obtain rfl : r = r' := hresult
    cases r with
    | ok a => exact ⟨(hk a).result hagree, (hk a).agree hagree⟩
    | error f => exact ⟨rfl, hagree⟩
  refine ⟨fun h => (hrun h).1, fun h => (hrun h).2, ?_⟩
  intro env name hname
  have hkept := he.kept env name hname
  rw [carryOut_bind]
  generalize e.carryOut env = p at hkept
  obtain ⟨r, next⟩ := p
  cases r with
  | ok a => exact ((hk a).kept next name hname).trans hkept
  | error f => exact hkept

end Evaluation

open Evaluation

/-! ### The steps of a sentence -/

section Steps

variable {names : List String} {registry : Registry}

/-- A word is read as the environment says only if it is a name. -/
lemma nounOf_confined {t : Token} (ht : t.kind = .name → t.text ∈ names) :
    (nounOf t).Confined names := by
  refine (nounOf_steady t).confined fun {env env'} h => ?_
  by_cases hk : t.kind = .name
  · have hyields := fun next => (NounWord.name t hk).nounOf_yields next
    have hrun : ∀ next, ((nounOf t).carryOut next).1 = (NounWord.name t hk).value next :=
      fun next => congrArg Prod.fst (hyields next)
    rw [hrun, hrun, NounWord.value, NounWord.value, h _ (ht hk)]
  · unfold nounOf
    split
    · rfl
    · exact absurd ‹_› hk
    · rfl
    · rfl

lemma bindName_confined {name : String} (hname : name ∈ names) (v : Noun) :
    (bindName name (.noun v)).Confined names := by
  refine ⟨fun _ => rfl, fun h => h.set name v, fun env other hother => ?_⟩
  exact env.get?_set_of_ne v (ne_of_mem_of_not_mem hname hother).symm

lemma monadStep_confined (t : Token) (right : Noun) :
    (monadStep registry t right).Confined names :=
  (confined_mk _).bind fun _ => confined_mk _

lemma dyadStep_confined {l : Token} (hl : l.kind = .name → l.text ∈ names) (t : Token)
    (right : Noun) : (dyadStep registry l t right).Confined names :=
  (confined_mk _).bind fun _ => (nounOf_confined hl).bind fun _ => confined_mk _

/-! ### Expressions, statements and lines -/

lemma scan_confined {ts : List Token} (hts : Within names ts) (right : Noun) :
    (scan registry ts right).Confined names := by
  induction ts using scan_induction generalizing right with
  | nil =>
    rw [scan_nil]
    exact confined_pure right
  | nonsensical t ts ht =>
    rw [scan_nonsensical registry ht]
    exact confined_throw _
  | monad t ts ht hrest ih =>
    rw [scan_monad registry ht hrest]
    exact (monadStep_confined t right).bind (ih (List.forall_mem_cons.mp hts).2)
  | dyad t l ts ht hl ih =>
    obtain ⟨hleft, htail⟩ := List.forall_mem_cons.mp (List.forall_mem_cons.mp hts).2
    rw [scan_dyad registry ht hl]
    exact (dyadStep_confined hleft t right).bind (ih htail)

lemma expression_confined {ts : List Token} (hts : Within names ts) (h : ts ≠ []) :
    (expression registry ts h).Confined names := by
  refine (nounOf_confined (hts _ (List.getLast_mem h))).bind (scan_confined fun t ht => hts t ?_)
  exact List.dropLast_subset ts (List.mem_reverse.mp ht)

lemma statement_confined {ts : List Token} (h : ts ≠ []) (hts : Within names ts) :
    (statement registry ts h).Confined names := by
  induction ts, h using statement_induction with
  | phrase ts h hphrase =>
    rw [statement_of_phrase registry h hphrase]
    exact expression_confined hts h
  | nothing name symbol h hs =>
    rw [statement_of_nothing registry hs]
    exact confined_throw _
  | assign name symbol ts h hnil hs ih =>
    obtain ⟨hname, htail⟩ := List.forall_mem_cons.mp hts
    rw [statement_of_assignment registry hs hnil]
    refine (ih (List.forall_mem_cons.mp htail).2).bind fun v => ?_
    exact (bindName_confined (hname (kinds_of_isAssignment hs).1) v).bind fun _ => confined_pure v

lemma performAfter_confined {ss : List Statement} (hss : ∀ s ∈ ss, Within names s.1)
    (last : Option Noun) : (performAfter registry last ss).Confined names := by
  induction ss generalizing last with
  | nil => exact confined_pure last
  | cons s ss ih =>
    obtain ⟨hs, htail⟩ := List.forall_mem_cons.mp hss
    rw [performAfter_cons]
    exact (statement_confined s.2 hs).bind fun v => ih htail (some v)

end Steps

/-- A source is confined to the names that stand in it. -/
lemma evaluate_confined (registry : Registry) (source : String) :
    (evaluate registry source).Confined (sourceNames source) := by
  rw [sourceNames]
  cases ht : tokenize source with
  | error e =>
    rw [evaluate, ht]
    exact confined_throw _
  | ok ts =>
    rw [evaluate_of_tokens ht]
    refine performAfter_confined (fun s hs t hmem hk => ?_) none
    exact within_namesIn ts t (mem_of_mem_statements hs hmem) hk

/-- **A source depends on the names that stand in it, and on no others.**  In two environments that
agree on these names it comes to the same value or to the same failure; the environments that it
leaves agree on them again; and in either of them every other name is as it was. -/
theorem evaluate_depends_on_names (registry : Registry) (source : String)
    (env env' : Environment) (h : env.AgreeOn (sourceNames source) env') :
    ((evaluate registry source).carryOut env).1 = ((evaluate registry source).carryOut env').1 ∧
    ((evaluate registry source).carryOut env).2.AgreeOn (sourceNames source)
      ((evaluate registry source).carryOut env').2 ∧
    ∀ name ∉ sourceNames source,
      ((evaluate registry source).carryOut env).2.get? name = env.get? name ∧
      ((evaluate registry source).carryOut env').2.get? name = env'.get? name := by
  have hconfined := evaluate_confined registry source
  refine ⟨hconfined.result h, hconfined.agree h, fun name hname => ?_⟩
  exact ⟨hconfined.kept env name hname, hconfined.kept env' name hname⟩

/-- The line `y =: x` before the line `z`, where nothing is bound to `z`: it is all the same whether
`w` is bound, and in both environments `y` is bound and `w` is left alone. -/
theorem depends_on_names_before_failure :
    let source := "y =: x\nz"
    let run := (evaluate (.standard defaultLimit) source).carryOut
    let env := Environment.empty.set "x" (.atom .integer 1)
    let env' := env.set "w" (.atom .integer 2)
    (sourceNames source = ["y", "x", "z"] ∧ env.AgreeOn (sourceNames source) env') ∧
    ((run env).1 = (run env').1 ∧ (run env).2.AgreeOn (sourceNames source) (run env').2 ∧
      ∀ name ∉ sourceNames source,
        (run env).2.get? name = env.get? name ∧ (run env').2.get? name = env'.get? name) ∧
    (run env').2.get? "y" = some (.atom .integer 1) := by
  intro source run env env'
  have hwords : tokenize "y =: x\nz" = .ok [⟨.name, "y", 0, 1, []⟩, ⟨.operator, "=:", 2, 4, []⟩,
      ⟨.name, "x", 5, 6, []⟩, ⟨.eol, "\n", 6, 7, []⟩, ⟨.name, "z", 7, 8, []⟩,
      ⟨.eol, "", 8, 8, []⟩] := rfl
  have hagree : env.AgreeOn (sourceNames source) env' :=
    Environment.agreeOn_set (by decide) env (.atom .integer 2)
  refine ⟨⟨by decide, hagree⟩, evaluate_depends_on_names _ source env env' hagree, ?_⟩
  show ((evaluate _ source).carryOut env').2.get? "y" = _
  rw [evaluate_of_tokens hwords]
  rfl

end ArrayCalc

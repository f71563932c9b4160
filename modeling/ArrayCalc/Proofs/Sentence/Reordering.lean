import ArrayCalc.Proofs.Sentence.Confinement
/-!
Statements that do not touch each other's names may change places.

* `mem_namesIn_of_mem_assignedNames`: a name that a statement assigns stands in it;
* `Environment.agreeOn_setAll`, `Environment.get?_setAll_comm`: names that are bound are seen by no
  others, and names apart from each other may be bound in either order;
* `carryOut_statement_of_agreeOn`: a statement that succeeds does so wherever its names mean the
  same, and binds the same names to the same noun there;
* `statements_reorder`: **two statements of which neither assigns a name that stands in the other**
  come to the same nouns in either order, and leave every name bound to the same noun.
-/

namespace ArrayCalc

open Lexer Evaluation

/-! ### Names that are assigned -/

/-- A name that a statement assigns stands in it. -/
lemma mem_namesIn_of_mem_assignedNames {ts : List Token} {name : String}
    (h : name ∈ assignedNames ts) : name ∈ namesIn ts := by
  induction ts using assignment_induction with
  | phrase ts hphrase =>
    rw [assignedNames_of_not hphrase] at h
    cases h
  | assign first symbol ts hs ih =>
    rw [assignedNames, if_pos hs] at h
    rcases List.mem_cons.mp h with rfl | h
    · exact mem_namesIn.mpr ⟨first, List.mem_cons_self, (kinds_of_isAssignment hs).1, rfl⟩
    · obtain ⟨t, ht, hk, rfl⟩ := mem_namesIn.mp (ih h)
      exact mem_namesIn.mpr
        ⟨t, List.mem_cons_of_mem first (List.mem_cons_of_mem symbol ht), hk, rfl⟩

namespace Environment

/-- What is bound to other names is not seen. -/
lemma agreeOn_setAll {names bound : List String} (h : ∀ name ∈ bound, name ∉ names)
    (env : Environment) (v : Noun) : env.AgreeOn names (env.setAll bound v) := by
  intro name hname
  rw [get?_setAll, if_neg fun hbound => h name hbound hname]

/-- Names apart from each other may be bound in either order. -/
lemma get?_setAll_comm {names others : List String} (h : ∀ name ∈ names, name ∉ others)
    (env : Environment) (v w : Noun) (name : String) :
    ((env.setAll names v).setAll others w).get? name =
      ((env.setAll others w).setAll names v).get? name := by
  simp only [get?_setAll]
  by_cases hname : name ∈ names
  · rw [if_neg (h name hname), if_pos hname, if_pos hname]
  · rw [if_neg hname, if_neg hname]

end Environment

/-! ### Two statements -/

/-- A statement that succeeds does so in every environment that agrees on its names, and binds there
what it has bound here. -/
lemma carryOut_statement_of_agreeOn {registry : Registry} {s : Statement}
    {env env' after : Environment} {v : Noun}
    (hok : (statement registry s.1 s.2).carryOut env = (.ok v, after))
    (hagree : env.AgreeOn (namesIn s.1) env') :
    (statement registry s.1 s.2).carryOut env' = (.ok v, env'.setAll (assignedNames s.1) v) := by
  have hconfined : (statement registry s.1 s.2).Confined (namesIn s.1) :=
    statement_confined s.2 (within_namesIn s.1)
  have hresult := hconfined.result hagree
  rw [hok] at hresult
  generalize hrun : (statement registry s.1 s.2).carryOut env' = p at hresult
  obtain ⟨r, after'⟩ := p
  obtain rfl : Except.ok v = r := hresult
  rw [(statement_assigns hrun).order]

/-- **Statements may change places** if neither assigns a name that stands in the other: when both
succeed in one order, both succeed in the other order with the same values, and every name is bound
to the same noun afterwards. -/
theorem statements_reorder (registry : Registry) (s t : Statement)
    (hs : ∀ name ∈ assignedNames s.1, name ∉ namesIn t.1)
    (ht : ∀ name ∈ assignedNames t.1, name ∉ namesIn s.1)
    (env mid after : Environment) (v w : Noun)
    (hfirst : (statement registry s.1 s.2).carryOut env = (.ok v, mid))
    (hsecond : (statement registry t.1 t.2).carryOut mid = (.ok w, after)) :
    ∃ mid' after', (statement registry t.1 t.2).carryOut env = (.ok w, mid') ∧
      (statement registry s.1 s.2).carryOut mid' = (.ok v, after') ∧
      ∀ name, after'.get? name = after.get? name := by
  obtain rfl : mid = env.setAll (assignedNames s.1) v := (statement_assigns hfirst).order
  obtain rfl := (statement_assigns hsecond).order
  -- what the one binds is not read by the other, so each runs as it would by itself
  have hback : (env.setAll (assignedNames s.1) v).AgreeOn (namesIn t.1) env := fun name hname =>
    (Environment.agreeOn_setAll hs env v name hname).symm
  have hforth : env.AgreeOn (namesIn s.1) (env.setAll (assignedNames t.1) w) :=
    Environment.agreeOn_setAll ht env w
  refine ⟨_, _, carryOut_statement_of_agreeOn hsecond hback,
    carryOut_statement_of_agreeOn hfirst hforth, fun name => ?_⟩
  refine (Environment.get?_setAll_comm (fun other hother => ?_) env v w name).symm
  exact fun hmem => hs other hother (mem_namesIn_of_mem_assignedNames hmem)

/-- The statements `a =: b =: x` and `c =: 2 - x` where `x` is bound to 1: both read `x`, and what
they assign is read by neither. -/
theorem reorder_chain_and_difference :
    let registry := Registry.standard defaultLimit
    let gets : Token := ⟨.operator, "=:", 2, 4, []⟩
    let x : Token := ⟨.name, "x", 10, 11, []⟩
    let s : Statement :=
      ⟨[⟨.name, "a", 0, 1, []⟩, gets, ⟨.name, "b", 5, 6, []⟩, ⟨.operator, "=:", 7, 9, []⟩, x],
        List.cons_ne_nil _ _⟩
    let t : Statement :=
      ⟨[⟨.name, "c", 0, 1, []⟩, gets, ⟨.number, "2", 5, 6, ["2"]⟩, ⟨.operator, "-", 7, 8, []⟩, x],
        List.cons_ne_nil _ _⟩
    let env := Environment.empty.set "x" (.atom .integer 1)
    let one := Noun.atom .integer 1
    let mid := env.setAll ["a", "b"] one
    let after := mid.setAll ["c"] one
    ((∀ name ∈ assignedNames s.1, name ∉ namesIn t.1) ∧
      ∀ name ∈ assignedNames t.1, name ∉ namesIn s.1) ∧
    ((statement registry s.1 s.2).carryOut env = (.ok one, mid) ∧
      (statement registry t.1 t.2).carryOut mid = (.ok one, after)) ∧
    ∃ mid' after', (statement registry t.1 t.2).carryOut env = (.ok one, mid') ∧
      (statement registry s.1 s.2).carryOut mid' = (.ok one, after') ∧
      ∀ name, after'.get? name = after.get? name := by
  intro registry gets x s t env one mid after
  have hs : ∀ name ∈ assignedNames s.1, name ∉ namesIn t.1 := by decide
  have ht : ∀ name ∈ assignedNames t.1, name ∉ namesIn s.1 := by decide
  have hfirst : (statement registry s.1 s.2).carryOut env = (.ok one, mid) := rfl
  have hsecond : (statement registry t.1 t.2).carryOut mid = (.ok one, after) := rfl
  exact ⟨⟨hs, ht⟩, ⟨hfirst, hsecond⟩,
    statements_reorder registry s t hs ht env mid after one one hfirst hsecond⟩

end ArrayCalc

import ArrayCalc.Proofs.Error.Messages
import ArrayCalc.Proofs.Verb.Counting
import ArrayCalc.Proofs.Verb.SinglePath
/-!
Where the primitive verbs fail.

* `agreeingSymbols`, `countingSymbol`: the verbs that may fail, by symbol;
* `dyadic_eq_error`: **a dyad made of pointwise kernels fails only on shapes that do not agree**,
  and with them;
* `Primitive.exists_domain_of_iota_eq_error`: **counting up fails only for its extents**, and says
  so in its own words.
-/

namespace ArrayCalc

/-! ### Verbs made of kernels -/

section Kernels

variable {result : Kind → Kind}

lemma dyadic_eq_error {f : (k : Kind) → k.Elem → k.Elem → (result k).Elem} {l r : Noun} {e : Error}
    (h : dyadic (.pointwise result f) l r = .error e) :
    ¬ (l.shape <:+ r.shape ∨ r.shape <:+ l.shape) ∧
      e = .shape (.disagreement l.shape r.shape) := by
  simp only [dyadic, Matched.zipRun, DyadicKernels.pointwise] at h
  generalize hv : (l.matched r).left.zipRun _ (l.matched r).right = v at h
  cases v with
  | ok v => cases h
  | error s =>
    cases h
    have hs := Shaped.zipRun_both_eq_error hv
    have hl : (l.matched r).left.shape = l.shape := Shaped.shape_map _ _
    have hr : (l.matched r).right.shape = r.shape := Shaped.shape_map _ _
    rw [hl, hr] at hs
    exact ⟨hs.1, congrArg Error.shape hs.2⟩

end Kernels

/-! ### Counting up -/

namespace Primitive

variable {limit : Nat} {n : Noun}

lemma repeated_of_obstacle {d : DomainError} (h : obstacle? limit n = some d) :
    d.repeated = [] := by
  rw [obstacle?] at h
  split_ifs at h
  all_goals
    cases h
    rfl

lemma exists_domain_of_iota_eq_error {e : Error} (h : iota limit n = .error e) :
    ∃ d, e = .domain d ∧ d.repeated = [] := by
  cases hobstacle : obstacle? limit n with
  | some d =>
    rw [iota_of_obstacle hobstacle] at h
    cases h
    exact ⟨d, rfl, repeated_of_obstacle hobstacle⟩
  | none =>
    obtain ⟨a, ha, -⟩ := exists_iota_of_clear hobstacle
    rw [ha] at h
    cases h

end Primitive

/-! ### The verbs that may fail -/

/-- The symbols of the primitive dyads that combine their operands element by element. -/
def agreeingSymbols : List String := ["+", "-", "*", "%", "=", "*."]

/-- The symbol of the primitive monad that counts up. -/
def countingSymbol : String := "i."

end ArrayCalc

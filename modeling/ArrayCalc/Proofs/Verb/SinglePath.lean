import ArrayCalc.Proofs.Array.Agreement
import ArrayCalc.Verb
/-!
One path for all pairs of operands.

A dyad has a rule of its own for each way in which its operands are atoms or arrays.  All of them
come to the same: an atom is an array without axes, and arrays are combined as they agree.

* `Shaped.toDense`, `Shaped.ofDense`: an atom as an array without axes, and back;
* `Shaped.zipRun_both`: the four rules for pointwise kernels are the agreement of such arrays;
  `Shaped.zipRun_both_eq_error`: they fail on nothing but shapes that do not agree;
* `singlePath`: two nouns made arrays, widened to the higher kind, combined, and made an atom again
  if both were atoms;
* `dyadic_eq_singlePath`: **every dyad made of pointwise kernels takes the single path**, failures
  included.
-/

namespace ArrayCalc

variable {α β γ : Type}

/-! ### Atoms and arrays without axes -/

/-- The array without axes that holds an element. -/
def Dense.single (x : α) : Dense α := ⟨[], [x], rfl⟩

lemma Dense.tile_singleton (x : α) (size : Nat) : tile [x] size = List.replicate size x := by
  rw [tile, List.length_singleton, Nat.div_one]
  induction size with
  | zero => rfl
  | succ size ih =>
    rw [List.replicate_succ, List.flatten_cons, ih]
    rfl

namespace Shaped

/-- An atom made an array without axes; an array as it is. -/
def toDense : Shaped α → Dense α
  | atom x => .single x
  | array a => a

/-- An array made an atom if one is wanted and there is just one element. -/
def ofDense (atomic : Bool) (a : Dense α) : Shaped α :=
  match atomic, a.data with
  | true, [x] => atom x
  | _, _ => array a

lemma shape_toDense (v : Shaped α) : v.toDense.shape = v.shape := by
  cases v <;> rfl

lemma data_toDense (v : Shaped α) : v.toDense.data = v.data := by
  cases v <;> rfl

/-- A shaped value has as many elements as its shape holds. -/
lemma length_data (v : Shaped α) : v.data.length = volume v.shape := by
  rw [← data_toDense, v.toDense.fills, shape_toDense]

lemma toDense_map (f : α → β) (v : Shaped α) : (v.map f).toDense = v.toDense.map f := by
  cases v <;> rfl

/-! ### The four rules -/

/-- Arrays meet an atom on the right as they meet an array without axes. -/
lemma agreementMap_single_right (f : α → β → γ) (a : Dense α) (y : β) :
    Dense.agreementMap (Run.both f) a (.single y) = .ok (a.map fun x => f x y) := by
  obtain ⟨c, hc, hshape, hdata⟩ :=
    Dense.agreementMap_both f (a := a) (b := .single y) (.inr List.nil_suffix)
  have hlonger : c.shape = a.shape := hshape.trans (if_neg (Nat.not_lt_zero _))
  have heq : c = a.map fun x => f x y := by
    ext1
    · exact hlonger
    · have htile : Dense.tile (Dense.single y).data (volume c.shape) =
          List.replicate a.data.length y := by
        rw [hlonger, ← a.fills]
        exact Dense.tile_singleton y _
      rw [hdata, htile, hlonger, ← a.fills, Dense.tile_self, Dense.data_map]
      exact List.ext_getElem (by simp) (by simp)
  rw [hc, heq]

/-- Arrays meet an atom on the left as they meet an array without axes. -/
lemma agreementMap_single_left (f : α → β → γ) (x : α) (b : Dense β) :
    Dense.agreementMap (Run.both f) (.single x) b = .ok (b.map (f x)) := by
  have hsuffix : (Dense.single x).shape <:+ b.shape ∨ b.shape <:+ (Dense.single x).shape :=
    .inl List.nil_suffix
  rw [← Dense.agreementMap_flip f hsuffix, agreementMap_single_right]

/-- Whichever of the operands are atoms, a pointwise kernel combines them as arrays. -/
theorem zipRun_both (f : α → β → γ) (l : Shaped α) (r : Shaped β) :
    l.zipRun (Run.both f) r =
      (Dense.agreementMap (Run.both f) l.toDense r.toDense).map
        (ofDense (l.isAtom && r.isAtom)) := by
  cases l with
  | array a =>
    cases r with
    | array b => rfl
    | atom y =>
      show (Dense.mapAtomRight (Run.both f) a y).map array =
        (Dense.agreementMap (Run.both f) a (.single y)).map (ofDense false)
      rw [Dense.mapAtomRight_both, agreementMap_single_right]
      rfl
  | atom x =>
    cases r with
    | array b =>
      show (Dense.mapAtomLeft (Run.both f) x b).map array =
        (Dense.agreementMap (Run.both f) (.single x) b).map (ofDense false)
      rw [Dense.mapAtomLeft_both, agreementMap_single_left]
      rfl
    | atom y => rfl

/-- A pointwise kernel fails only on operands that do not agree. -/
lemma zipRun_both_eq_error {f : α → β → γ} {l : Shaped α} {r : Shaped β} {e : ShapeError}
    (h : l.zipRun (Run.both f) r = .error e) :
    ¬ (l.shape <:+ r.shape ∨ r.shape <:+ l.shape) ∧ e = .disagreement l.shape r.shape := by
  rw [zipRun_both] at h
  rw [← shape_toDense l, ← shape_toDense r]
  by_cases hagree : l.toDense.shape <:+ r.toDense.shape ∨ r.toDense.shape <:+ l.toDense.shape
  · obtain ⟨c, hc, -, -⟩ := Dense.agreementMap_both f hagree
    rw [hc] at h
    cases h
  · rw [Dense.agreementMap_eq_error _ hagree] at h
    cases h
    exact ⟨hagree, rfl⟩

/-- Two operands make an atom exactly if both are atoms, whatever the kernel is. -/
lemma isAtom_of_zipRun_eq_ok {fn : Run α → Run β → Run γ} {l : Shaped α} {r : Shaped β}
    {v : Shaped γ} (h : l.zipRun fn r = .ok v) : v.isAtom = (l.isAtom && r.isAtom) := by
  have hmap : ∀ {δ : Type} {g : δ → Shaped γ} {e : Except ShapeError δ},
      e.map g = .ok v → ∃ d, g d = v := by
    rintro δ g (_ | d) ⟨⟩
    exact ⟨d, rfl⟩
  cases l with
  | array a =>
    cases r with
    | array b =>
      obtain ⟨c, rfl⟩ := hmap h
      rfl
    | atom y =>
      obtain ⟨c, rfl⟩ := hmap h
      rfl
  | atom x =>
    cases r with
    | array b =>
      obtain ⟨c, rfl⟩ := hmap h
      rfl
    | atom y =>
      obtain ⟨z, rfl⟩ := hmap h
      rfl

end Shaped

/-! ### Nouns -/

lemma Noun.kind_le_join_left (l r : Noun) : l.kind ≤ Kind.join l.kind r.kind :=
  Kind.le_join_left l.kind r.kind

lemma Noun.kind_le_join_right (l r : Noun) : r.kind ≤ Kind.join l.kind r.kind :=
  Kind.le_join_right l.kind r.kind

/-- Two nouns combined as arrays: atoms are taken for arrays without axes, both are widened to the
higher of the two kinds, the kernel for that kind is applied as the arrays agree, and the result is
an atom if both nouns were. -/
def singlePath (ks : DyadicKernels) (l r : Noun) : Except ShapeError Noun := do
  let a := l.value.toDense.map (Kind.widen (l.kind_le_join_left r))
  let b := r.value.toDense.map (Kind.widen (l.kind_le_join_right r))
  let c ← Dense.agreementMap (ks.run (Kind.join l.kind r.kind)) a b
  return ⟨ks.result (Kind.join l.kind r.kind), .ofDense (l.isAtom && r.isAtom) c⟩

/-- **All dyads take one path.**  A dyad made of pointwise kernels gives what the single path gives,
the same noun or the same failure; and what it gives is an atom exactly if both operands are. -/
theorem dyadic_eq_singlePath (result : Kind → Kind)
    (f : (k : Kind) → k.Elem → k.Elem → (result k).Elem) (l r : Noun) :
    dyadic (.pointwise result f) l r =
      (singlePath (.pointwise result f) l r).mapError Error.shape ∧
    ∀ n, dyadic (.pointwise result f) l r = .ok n → n.isAtom = (l.isAtom && r.isAtom) := by
  refine ⟨?_, fun n hn => ?_⟩
  · simp only [dyadic, singlePath, Matched.zipRun, Noun.matched, DyadicKernels.pointwise,
      Shaped.zipRun_both, Shaped.toDense_map, Shaped.isAtom_map, Noun.isAtom]
    generalize Dense.agreementMap _ _ _ = c
    cases c <;> rfl
  · simp only [dyadic, Matched.zipRun] at hn
    generalize hv : (l.matched r).left.zipRun _ (l.matched r).right = e at hn
    cases e with
    | error e => cases hn
    | ok v =>
      cases hn
      calc v.isAtom = ((l.matched r).left.isAtom && (l.matched r).right.isAtom) :=
            Shaped.isAtom_of_zipRun_eq_ok hv
        _ = (l.isAtom && r.isAtom) := by
            simp only [Noun.matched, Shaped.isAtom_map, Noun.isAtom]

end ArrayCalc

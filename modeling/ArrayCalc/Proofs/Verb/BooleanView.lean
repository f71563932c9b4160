import ArrayCalc.Proofs.Decimal.Closest
import ArrayCalc.Proofs.Display.Elements
import ArrayCalc.Proofs.Verb.IntegerLaws
/-!
The boolean view.

The verb `*.` asks of both its operands which of their elements are nonzero, and only then brings
them to one kind, which is that of booleans by then.

* `Kind.truth_iff`: an element is true unless it says zero;
* `roundsTo_toDecimal`: an integer is widened to the double that it rounds to; `truth_of_roundsTo`:
  what is no less than one in size does not round to zero; **`Kind.truth_widen`: widening changes no
  truth**;
* `Noun.truth_widen`, `Noun.truth_of_boolean`: the boolean view of a noun is that of the noun at any
  higher kind, and is its own;
* `bind_product_truth`: `*.` is the product of the boolean views, also where it is used again;
* `boolean_view_of_any_kind`: **the boolean view does not depend on the kind**, and so `*.` does
  not; it is commutative and associative.
-/

namespace ArrayCalc

open Decimal Primitive IntegerTerm Float.Model Float.Model.UnpackedFloat

/-! ### Nonzero elements -/

/-- A number compares as zero exactly if it is zero, whatever its sign. -/
lemma Decimal.Scaled.beq_zero (b : Scaled) (s : Sign) :
    (b.unpacked s).beq (.zero .positive) = decide (b.value = 0) := by
  rw [decide_eq_decide.mpr value_eq_zero_iff]
  by_cases h : b.significand = 0
  · rw [unpacked_of_eq_zero h, decide_eq_true h]
    rfl
  · rw [unpacked_of_pos (Nat.pos_of_ne_zero h), decide_eq_false h]
    cases s <;> rfl

namespace Kind

lemma truth_decimal (x : Float) :
    truth .decimal x = !x.toModel.unpack.beq (.zero .positive) := rfl

/-- Whatever is not a number or infinite is true. -/
lemma truth_of_not_isFinite {x : Float} (h : x.isNaN = true ∨ x.isInf = true) :
    truth .decimal x = true := by
  rw [isNaN_eq, isInf_eq] at h
  rw [truth_decimal]
  generalize x.toModel.unpack = u at h
  cases u with
  | notANumber => rfl
  | infinity s => cases s <;> rfl
  | zero s => rcases h with h | h <;> cases h
  | finite s m e hm => rcases h with h | h <;> cases h

/-- A finite double is true unless it holds zero. -/
lemma truth_of_isFinite {x : Float} (h : IsFinite x) :
    truth .decimal x = decide (signedValue x ≠ 0) := by
  have hzero : signedValue x = 0 ↔ (Scaled.ofFloat x).value = 0 := by
    rw [signedValue]
    split_ifs
    · exact neg_eq_zero
    · exact Iff.rfl
  rw [truth_decimal, unpack_of_isFinite h, Scaled.beq_zero, decide_not,
    decide_eq_decide.mpr hzero]

/-- **An element is true unless it says zero**, be it with either sign. -/
theorem truth_iff (k : Kind) (x : k.Elem) : k.truth x = true ↔ k.quantity x ≠ .finite 0 := by
  cases k with
  | boolean => cases x <;> simp [truth, quantity]
  | integer =>
    have hzero : Int64.toInt x = 0 ↔ x = (0 : Int64) := by
      rw [← Int64.toInt_zero, Int64.toInt_inj]
    simp [truth, quantity, hzero]
  | decimal =>
    by_cases hfinite : IsFinite x
    · rw [truth_of_isFinite hfinite, quantity, hfinite.1, hfinite.2]
      simp
    · have hnot : Float.isNaN x = true ∨ Float.isInf x = true := by
        simpa [IsFinite, or_iff_not_imp_left] using hfinite
      rw [truth_of_not_isFinite hnot, quantity]
      split_ifs <;> simp_all

end Kind

/-! ### Widened elements -/

/-- An integer is widened to the double that it rounds to. -/
lemma roundsTo_toDecimal (n : Int64) : RoundsTo (n.toInt : ℚ) (Kind.toDecimal n) := by
  rw [Kind.toDecimal]
  cases n.toInt with
  | ofNat m =>
    have h := (roundsTo_nearest false (Nat.cast_nonneg (α := ℚ) m)).1
    rw [← ofNat_eq_nearest] at h
    exact h
  | negSucc m =>
    have h := (roundsTo_nearest true (Nat.cast_nonneg (α := ℚ) (m + 1))).1
    rw [← ofNat_eq_nearest] at h
    rw [Int.cast_negSucc]
    exact h

/-- There are doubles that hold plus and minus one. -/
lemma exists_signedValue_eq_one (negative : Bool) :
    ∃ y, IsFinite y ∧ signedValue y = if negative then -1 else 1 := by
  have hfits : (⟨2 ^ 52, -52⟩ : Scaled).Fits :=
    ⟨by decide, by decide, by decide, .inl (by decide)⟩
  have hvalue : (⟨2 ^ 52, -52⟩ : Scaled).value = 1 := by
    rw [Scaled.value]
    norm_num
  refine ⟨_, isFinite_toFloat (if negative then .negative else .positive) hfits, ?_⟩
  rw [signedValue_toFloat hfits, hvalue]

/-- What is no less than one in size does not round to zero: plus or minus one is closer. -/
lemma truth_of_roundsTo {q : ℚ} {x : Float} (h : RoundsTo q x) (hq : 1 ≤ |q|) :
    Kind.truth .decimal x = true := by
  by_cases hinf : x.isInf = true
  · exact Kind.truth_of_not_isFinite (.inr hinf)
  have hfinite : IsFinite x := ⟨h.number, by simpa using hinf⟩
  have hsmall : |q| < tooLarge := not_le.mp fun hle => hinf (h.infinite.mpr hle)
  rw [Kind.truth_of_isFinite hfinite, decide_eq_true_iff]
  intro hzero
  obtain ⟨y, hy, hvalue⟩ := exists_signedValue_eq_one (decide (q < 0))
  have hclosest := h.closest hsmall y hy
  rw [hzero, hvalue, zero_sub, abs_neg] at hclosest
  rcases lt_or_ge q 0 with hneg | hpos
  · rw [abs_of_neg hneg] at hq hclosest
    rw [decide_eq_true hneg, if_pos rfl, abs_of_nonneg (by linarith)] at hclosest
    linarith
  · rw [abs_of_nonneg hpos] at hq hclosest
    rw [decide_eq_false hpos.not_gt, if_neg Bool.false_ne_true, abs_of_nonpos (by linarith)]
      at hclosest
    linarith

namespace Kind

/-- No integer but zero is widened to zero. -/
lemma truth_toDecimal (n : Int64) : truth .decimal (toDecimal n) = truth .integer n := by
  by_cases hzero : n = 0
  · rw [hzero]
    decide +kernel
  · have hone : (1 : ℚ) ≤ |(n.toInt : ℚ)| := by
      have hne : n.toInt ≠ 0 := by rwa [← Int64.toInt_zero, Ne, Int64.toInt_inj]
      exact_mod_cast Int.one_le_abs hne
    rw [truth_of_roundsTo (roundsTo_toDecimal n) hone]
    exact (bne_iff_ne.mpr hzero).symm

/-- **Widening changes no truth.** -/
theorem truth_widen {a b : Kind} (h : a ≤ b) (x : a.Elem) : b.truth (widen h x) = a.truth x := by
  have hcount : ∀ y : Bool, truth .integer (count y) = y := by decide
  cases a with
  | boolean =>
    cases b with
    | boolean => rfl
    | integer => exact hcount x
    | decimal => exact (truth_toDecimal _).trans (hcount x)
  | integer =>
    cases b with
    | boolean => exact absurd h (by decide)
    | integer => rfl
    | decimal => exact truth_toDecimal x
  | decimal =>
    cases b with
    | boolean | integer => exact absurd h (by decide)
    | decimal => rfl

end Kind

/-! ### Boolean views -/

namespace Noun

/-- The boolean view of a noun is that of the noun at any higher kind. -/
lemma truth_widen (n : Noun) (k : Kind) (h : n.kind ≤ k) : (n.widen k h).truth = n.truth := by
  have hsame : k.truth ∘ Kind.widen h = n.kind.truth := funext fun x => Kind.truth_widen h x
  rw [truth, truth]
  exact congrArg (mk .boolean) ((Shaped.map_map _ _ _).trans (congrArg n.value.map hsame))

/-- A boolean noun is its own boolean view. -/
lemma truth_of_boolean {n : Noun} (h : n.kind = .boolean) : n.truth = n := by
  obtain ⟨k, v⟩ := n
  cases h
  refine congrArg (mk .boolean) ?_
  cases v with
  | atom x => rfl
  | array a => exact congrArg Shaped.array (Dense.ext rfl (List.map_id _))

/-- The elements of the boolean view tell which elements are nonzero. -/
lemma elements_truth (n : Noun) :
    n.truth.elements = n.elements.map fun e => ⟨.boolean, decide (e.quantity ≠ .finite 0)⟩ := by
  have htruth : ∀ x, n.kind.truth x = decide (n.kind.quantity x ≠ .finite 0) := fun x =>
    Bool.eq_iff_iff.mpr ((Kind.truth_iff n.kind x).trans decide_eq_true_iff.symm)
  have hdata : n.truth.value.data = n.value.data.map n.kind.truth := Shaped.data_map _ _
  rw [elements, elements, hdata, List.map_map]
  refine List.map_map.trans (List.map_congr_left fun x _ => ?_)
  exact congrArg (Element.mk .boolean) (htruth x)

end Noun

/-! ### Both -/

/-- The product of boolean views is its own boolean view. -/
lemma bind_product_truth {α : Type} (l r : Noun) (f : Noun → Except Error α) :
    (IntegerDyad.product.apply l.truth r.truth >>= fun n => f n.truth) =
      IntegerDyad.product.apply l.truth r.truth >>= f := by
  cases h : IntegerDyad.product.apply l.truth r.truth with
  | error e => rfl
  | ok n =>
    obtain ⟨v, -, rfl⟩ := dyadic_eq_ok h
    exact congrArg f (Noun.truth_of_boolean rfl)

/-- **The boolean view does not depend on the kind** at which a noun is read, and a second one
changes nothing: it keeps type and shape, and an element is true unless it says zero.  So `*.` does
not depend on the kinds of its operands either; it is the product of their boolean views, and is
commutative and associative.  Either both sides of an equation give the same noun, or both fail on
shapes that do not agree. -/
theorem boolean_view_of_any_kind (limit : Nat) :
    (∀ (n : Noun) (k : Kind), n.kind ≤ k → ∃ m, n.cast k = .ok m ∧ m.truth = n.truth) ∧
    (∀ n : Noun, n.truth.truth = n.truth ∧ n.truth.kind = .boolean ∧
      n.truth.isAtom = n.isAtom ∧ n.truth.shape = n.shape ∧
      n.truth.elements = n.elements.map fun e => ⟨.boolean, decide (e.quantity ≠ .finite 0)⟩) ∧
    (∀ x : Float, x.isNaN = true ∨ x.isInf = true → Kind.truth .decimal x = true) ∧
    Kind.truth .decimal (0 : Float) = false ∧ Kind.truth .decimal (-(0 : Float)) = false ∧
    ∃ both times, ((Registry.standard limit).dyad "*." = .ok both ∧
        (Registry.standard limit).dyad "*" = .ok times) ∧
      ∀ l r : Noun,
        (∀ j k, l.kind ≤ j → r.kind ≤ k →
          Alike (both.apply l r) (do both.apply (← l.cast j) (← r.cast k))) ∧
        Alike (both.apply l r) (times.apply l.truth r.truth) ∧
        Alike (both.apply l r) (both.apply r l) ∧
        ∀ s : Noun, Alike (do both.apply (← both.apply l r) s)
          (do both.apply l (← both.apply r s)) := by
  refine ⟨?cast, ?view, fun x => Kind.truth_of_not_isFinite, by decide +kernel, by decide +kernel,
    _, _, ⟨rfl, rfl⟩, fun l r => ?_⟩
  case cast => exact fun n k h => ⟨n.widen k h, Noun.cast_eq_ok h, n.truth_widen k h⟩
  case view =>
    exact fun n => ⟨Noun.truth_of_boolean rfl, rfl, Shaped.isAtom_map _ _, Shaped.shape_map _ _,
      n.elements_truth⟩
  have hview : ∀ n : Noun, n.truth.kind ≤ .integer := fun _ => (by decide : Kind.boolean ≤ .integer)
  have hself : Alike (IntegerDyad.product.apply l.truth r.truth)
      (IntegerDyad.product.apply l.truth r.truth) :=
    (Same.refl (dyad .product (noun l.truth) (noun r.truth))).alike (by simp [leaves, hview])
  refine ⟨fun j k hl hr => ?kinds, hself, ?comm, fun s => ?assoc⟩
  case kinds =>
    rw [Noun.cast_eq_ok hl, Noun.cast_eq_ok hr]
    show Alike _ (IntegerDyad.product.apply (l.widen j hl).truth (r.widen k hr).truth)
    rw [Noun.truth_widen, Noun.truth_widen]
    exact hself
  case comm =>
    exact (same_product_comm (noun l.truth) (noun r.truth)).alike (by simp [leaves, hview])
  case assoc =>
    have hassoc := (same_product_assoc (noun l.truth) (noun r.truth) (noun s.truth)).alike
      (by simp [leaves, hview])
    have hleft := bind_product_truth l r fun n => IntegerDyad.product.apply n s.truth
    have hright := bind_product_truth r s fun n => IntegerDyad.product.apply l.truth n
    show Alike (IntegerDyad.product.apply l.truth r.truth >>= fun n =>
        IntegerDyad.product.apply n.truth s.truth)
      (IntegerDyad.product.apply r.truth s.truth >>= fun n =>
        IntegerDyad.product.apply l.truth n.truth)
    rw [hleft, hright]
    exact hassoc

/-- A large odd integer, which no double holds, what is not a number and a minus zero. -/
theorem boolean_view_of_mixed_nouns :
    let l : Noun := .array .integer ⟨[2], [9007199254740993, 0], rfl⟩
    let r : Noun := .array .decimal ⟨[2, 2], [0 / 0, -(0 : Float), infinity, 0.25], rfl⟩
    (l.kind ≤ .decimal ∧ r.kind ≤ .decimal) ∧
    (∃ m, l.cast .decimal = .ok m ∧ m.truth = .array .boolean ⟨[2], [true, false], rfl⟩) ∧
    r.truth = .array .boolean ⟨[2, 2], [true, false, true, true], rfl⟩ ∧
    Kind.truth .decimal (0 / 0 : Float) = true ∧
    ∃ both, (Registry.standard 9).dyad "*." = .ok both ∧
      Alike (both.apply l r) (do both.apply (← l.cast .decimal) (← r.cast .decimal)) ∧
      both.apply l r = .ok (.array .boolean ⟨[2, 2], [true, false, true, false], rfl⟩) := by
  intro l r
  have hl : l.kind ≤ .decimal := by decide
  have hr : r.kind ≤ .decimal := by decide
  have hnan : Float.isNaN (0 / 0) = true := by decide +kernel
  have hview : r.truth = .array .boolean ⟨[2, 2], [true, false, true, true], rfl⟩ :=
    congrArg (Noun.array .boolean) (Dense.ext rfl (by decide +kernel))
  obtain ⟨hcast, -, hnumber, -, -, both, _, ⟨hboth, -⟩, hlaws⟩ := boolean_view_of_any_kind 9
  obtain ⟨m, hm, hsame⟩ := hcast l .decimal hl
  have hrun : both.apply l r =
      .ok (.array .boolean ⟨[2, 2], [true, false, true, false], rfl⟩) := by
    cases hboth
    show dyadic (.pointwise (fun _ => .boolean) Primitive.both) l.truth r.truth = _
    rw [hview]
    cbv
  exact ⟨⟨hl, hr⟩, ⟨m, hm, hsame⟩, hview, hnumber _ (.inl hnan), both, hboth,
    (hlaws l r).1 _ _ hl hr, hrun⟩

end ArrayCalc

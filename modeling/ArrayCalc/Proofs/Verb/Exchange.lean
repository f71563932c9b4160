import ArrayCalc.Proofs.Verb.Primitives
/-!
Operands that change sides.

A dyad looks at its operands one after the other, and treats atoms on the left otherwise than atoms
on the right.  None of this can be seen from outside: with the operands exchanged, and the kernels
told so, everything is as before, but that a failure names the shapes in the other order.

* `Error.exchanged`, `DyadicKernels.flip`: the order of two shapes in an error, and of two operands
  in a kernel, turned round;
* `Shaped.zipRun_exchange`, `Noun.matched_exchange`: the four ways in which operands are atoms or
  arrays, and operands brought to one kind;
* `dyadic_flip`: **a dyad made of any kernels does the same with its operands exchanged**;
* `Exchanged`: the same noun from either side, or the two shapes in either order;
  `operands_change_sides`: **a dyad made of pointwise kernels may have its operands exchanged if its
  kernels are flipped**, or if they are symmetric.
-/

namespace ArrayCalc

variable {α β γ : Type}

/-! ### Turned round -/

/-- The same error about operands that have changed sides. -/
def Error.exchanged : Error → Error
  | shape e => shape e.exchanged
  | e => e

/-- Kernels that take the operand on the right for the one on the left. -/
def DyadicKernels.flip (ks : DyadicKernels) : DyadicKernels :=
  ⟨ks.result, fun k a w => ks.run k w a⟩

/-! ### Atoms and arrays -/

/-- Atoms and arrays are combined from either side. -/
lemma Shaped.zipRun_exchange (fn : Run α → Run β → Run γ) (l : Shaped α) (r : Shaped β) :
    r.zipRun (fun y x => fn x y) l = (l.zipRun fn r).mapError ShapeError.exchanged := by
  have hmap : ∀ {δ : Type} (g : δ → Shaped γ) (e : Except ShapeError δ),
      (e.map g).mapError ShapeError.exchanged = (e.mapError ShapeError.exchanged).map g := by
    rintro δ g (e | d) <;> rfl
  cases l with
  | array a =>
    cases r with
    | array b => rw [zipRun, zipRun, hmap, Dense.agreementMap_exchange]
    | atom y =>
      rw [zipRun, zipRun, hmap, Dense.mapAtomLeft, Dense.mapAtomRight, Dense.fill_exchanged]
  | atom x =>
    cases r with
    | array b =>
      rw [zipRun, zipRun, hmap, Dense.mapAtomLeft, Dense.mapAtomRight, Dense.fill_exchanged]
    | atom y =>
      rw [zipRun, zipRun, hmap]
      cases fn (.lone x) (.lone y) <;> rfl

/-! ### Nouns -/

/-- The common kind of two nouns does not depend on their order. -/
lemma Noun.matched_exchange (l r : Noun) :
    r.matched l = ⟨(l.matched r).kind, (l.matched r).right, (l.matched r).left⟩ := by
  have hsame : ∀ (k : Kind) (hl : l.kind ≤ k) (hr : r.kind ≤ k), k = Kind.join l.kind r.kind →
      (⟨k, r.value.map (Kind.widen hr), l.value.map (Kind.widen hl)⟩ : Matched) =
        ⟨(l.matched r).kind, (l.matched r).right, (l.matched r).left⟩ := by
    rintro k hl hr rfl
    rfl
  exact hsame _ (r.kind_le_join_right l) (r.kind_le_join_left l) (Kind.join_comm _ _)

/-- **A dyad does the same with its operands exchanged**, provided that its kernels are flipped: it
gives the same noun, or the same error, in which two shapes stand in the other order. -/
theorem dyadic_flip (ks : DyadicKernels) (l r : Noun) :
    dyadic ks.flip r l = (dyadic ks l r).mapError Error.exchanged := by
  rw [dyadic, dyadic, Noun.matched_exchange]
  simp only [Matched.zipRun, DyadicKernels.flip]
  rw [Shaped.zipRun_exchange]
  cases (l.matched r).left.zipRun (ks.run (l.matched r).kind) (l.matched r).right <;> rfl

/-! ### Pointwise kernels -/

/-- What two nouns give, and what they give exchanged: the same noun, or the failure that their
shapes do not agree, which names the shapes as the operands stand. -/
inductive Exchanged (l r : Noun) : Except Error Noun → Except Error Noun → Prop
  | noun (n : Noun) : Exchanged l r (.ok n) (.ok n)
  | shapes : Exchanged l r (.error (.shape (.disagreement l.shape r.shape)))
      (.error (.shape (.disagreement r.shape l.shape)))

section Pointwise

variable {result : Kind → Kind} (f : (k : Kind) → k.Elem → k.Elem → (result k).Elem)

/-- The flip of pointwise kernels is that of their rules. -/
lemma DyadicKernels.flip_pointwise :
    (pointwise result f).flip = pointwise result fun k a w => f k w a := by
  have hrun : ∀ k, (fun a w => Run.both (f k) w a) = Run.both fun a w => f k w a :=
    fun k => funext fun a => funext fun w => (Run.both_flip (f k) w a).symm
  rw [flip, pointwise, pointwise]
  exact congrArg (mk result) (funext hrun)

/-- Pointwise kernels fail on nothing but the shapes of their operands. -/
lemma exchanged_flip (l r : Noun) :
    Exchanged l r (dyadic (.pointwise result f) l r)
      (dyadic (DyadicKernels.pointwise result f).flip r l) := by
  rw [dyadic_flip]
  cases hrun : dyadic (.pointwise result f) l r with
  | ok n => exact .noun n
  | error e =>
    rw [(dyadic_eq_error hrun).2]
    exact .shapes

end Pointwise

/-- **Operands may change sides with the kernels.**  A dyad made of pointwise kernels, and the dyad
made of the flipped kernels with its operands exchanged, give the same noun, of one type, shape and
kind and with the same elements, or fail both, with the two shapes in either order.  So a dyad whose
kernels are symmetric is commutative on all nouns. -/
theorem operands_change_sides (result : Kind → Kind)
    (f : (k : Kind) → k.Elem → k.Elem → (result k).Elem) (l r : Noun) :
    Exchanged l r (dyadic (.pointwise result f) l r)
      (dyadic (DyadicKernels.pointwise result f).flip r l) ∧
    ((∀ k a w, f k a w = f k w a) →
      Exchanged l r (dyadic (.pointwise result f) l r) (dyadic (.pointwise result f) r l)) := by
  have hflip := exchanged_flip f l r
  refine ⟨hflip, fun hsymm => ?_⟩
  have hsame : (fun k a w => f k w a) = f :=
    funext fun k => funext fun a => funext fun w => hsymm k w a
  rwa [DyadicKernels.flip_pointwise, hsame] at hflip

/-- A list and a table subtracted, and taken both for nonzero; and two lists that do not agree. -/
theorem change_sides_list_and_table :
    let l : Noun := .array .integer ⟨[2], [0, 7], rfl⟩
    let r : Noun := .array .boolean ⟨[2, 2], [true, true, false, true], rfl⟩
    let m : Noun := .array .integer ⟨[3], [1, 2, 3], rfl⟩
    let less : DyadicKernels := .pointwise Primitive.arithmetic Primitive.subtract
    let holds : DyadicKernels := .pointwise (fun _ => .boolean) Primitive.both
    dyadic less l r = .ok (.array .integer ⟨[2, 2], [-1, 6, 0, 6], rfl⟩) ∧
      dyadic less.flip r l = .ok (.array .integer ⟨[2, 2], [-1, 6, 0, 6], rfl⟩) ∧
      (∀ k a w, Primitive.both k a w = Primitive.both k w a) ∧
      dyadic holds l r = .ok (.array .boolean ⟨[2, 2], [false, true, false, true], rfl⟩) ∧
      dyadic holds r l = .ok (.array .boolean ⟨[2, 2], [false, true, false, true], rfl⟩) ∧
      dyadic less l m = .error (.shape (.disagreement [2] [3])) ∧
      dyadic less.flip m l = .error (.shape (.disagreement [3] [2])) := by
  intro l r m less holds
  have hok : ∀ {l r n : Noun} {y : Except Error Noun}, Exchanged l r (.ok n) y → y = .ok n := by
    rintro l r n y ⟨⟩
    rfl
  have hfailed : ∀ {l r : Noun} {e : Error} {y : Except Error Noun},
      Exchanged l r (.error e) y → y = .error (.shape (.disagreement r.shape l.shape)) := by
    rintro l r e y ⟨⟩
    rfl
  have hsymm : ∀ k a w, Primitive.both k a w = Primitive.both k w a :=
    fun k a w => Bool.and_comm _ _
  have hless : dyadic less l r = .ok (.array .integer ⟨[2, 2], [-1, 6, 0, 6], rfl⟩) := by cbv
  have hholds : dyadic holds l r =
      .ok (.array .boolean ⟨[2, 2], [false, true, false, true], rfl⟩) := by cbv
  have hapart : dyadic less l m = .error (.shape (.disagreement [2] [3])) := by cbv
  have hflipped := (operands_change_sides Primitive.arithmetic Primitive.subtract l r).1
  have hcommuted := (operands_change_sides (fun _ => .boolean) Primitive.both l r).2 hsymm
  have hexchanged := (operands_change_sides Primitive.arithmetic Primitive.subtract l m).1
  rw [hless] at hflipped
  rw [hholds] at hcommuted
  rw [hapart] at hexchanged
  exact ⟨hless, hok hflipped, hsymm, hholds, hok hcommuted, hapart, hfailed hexchanged⟩

end ArrayCalc

import Mathlib.Data.List.Forall2
import Mathlib.Tactic.Lemma
/-!
Results and errors of several steps.

* `exists_ok_of_bind_eq_ok`: a result of two steps comes from one of the first;
* `map_eq_ok_iff`, `map_eq_error_iff`, `eq_ok_of_mapError_eq_ok`,
  `exists_error_of_mapError_eq_error`: results or errors that are told otherwise;
* `mapM_eq_ok_iff`, `mapM_eq_error_iff`: one step for each of a list, up to the first that fails.
-/

namespace ArrayCalc

section
variable {ε ε' α β : Type} {x : Except ε α}

/-- A result of two steps comes from one of the first. -/
lemma exists_ok_of_bind_eq_ok {f : α → Except ε β} {b : β} (h : x >>= f = .ok b) :
    ∃ a, x = .ok a ∧ f a = .ok b := by
  cases x with
  | error e => cases h
  | ok a => exact ⟨a, rfl, h⟩

/-! ### Told otherwise -/

lemma map_eq_ok_iff {k : α → β} {b : β} : x.map k = .ok b ↔ ∃ a, x = .ok a ∧ b = k a := by
  cases x with
  | error e => exact ⟨nofun, nofun⟩
  | ok a =>
    constructor
    · intro h
      exact ⟨a, rfl, (Except.ok.inj h).symm⟩
    · rintro ⟨_, ⟨⟩, rfl⟩
      rfl

lemma map_eq_error_iff {k : α → β} {e : ε} : x.map k = .error e ↔ x = .error e := by
  cases x with
  | error d =>
    exact ⟨fun h => congrArg _ (Except.error.inj h), fun h => congrArg _ (Except.error.inj h)⟩
  | ok a => exact ⟨nofun, nofun⟩

/-- An error told otherwise is no result. -/
lemma eq_ok_of_mapError_eq_ok {f : ε → ε'} {a : α} (h : x.mapError f = .ok a) : x = .ok a := by
  cases x with
  | error e => cases h
  | ok b => exact congrArg Except.ok (Except.ok.inj h)

lemma exists_error_of_mapError_eq_error {f : ε → ε'} {e' : ε'} (h : x.mapError f = .error e') :
    ∃ e, x = .error e ∧ e' = f e := by
  cases x with
  | error e => exact ⟨e, rfl, (Except.error.inj h).symm⟩
  | ok a => cases h

end

/-! ### One after the other -/

section
variable {ε α β γ : Type} {f : α → Except ε β}

/-- All steps succeed if each does by itself. -/
lemma mapM_eq_ok_iff {xs : List α} {ys : List β} :
    xs.mapM f = .ok ys ↔ List.Forall₂ (fun x y => f x = .ok y) xs ys := by
  induction xs generalizing ys with
  | nil =>
    rw [List.mapM_nil, List.forall₂_nil_left_iff]
    exact ⟨fun h => (Except.ok.inj h).symm, fun h => congrArg Except.ok h.symm⟩
  | cons x xs ih =>
    rw [List.mapM_cons, List.forall₂_cons_left_iff]
    constructor
    · intro h
      obtain ⟨y, hx, h⟩ := exists_ok_of_bind_eq_ok h
      obtain ⟨ys, hxs, h⟩ := exists_ok_of_bind_eq_ok h
      exact ⟨y, ys, hx, ih.1 hxs, (Except.ok.inj h).symm⟩
    · rintro ⟨y, zs, hx, hxs, rfl⟩
      rw [hx, ih.2 hxs]
      rfl

/-- The first step that fails is to blame. -/
lemma mapM_eq_error_iff {xs : List α} {e : ε} :
    xs.mapM f = .error e ↔ ∃ before x after, xs = before ++ x :: after ∧
      (∀ y ∈ before, ∃ z, f y = .ok z) ∧ f x = .error e := by
  constructor
  · intro h
    induction xs with
    | nil => cases h
    | cons x xs ih =>
      rw [List.mapM_cons] at h
      cases hx : f x with
      | error d =>
        rw [hx] at h
        cases h
        exact ⟨[], x, xs, rfl, List.forall_mem_nil _, hx⟩
      | ok y =>
        cases hxs : xs.mapM f with
        | error d =>
          rw [hx, hxs] at h
          cases h
          obtain ⟨before, t, after, rfl, hbefore, ht⟩ := ih hxs
          exact ⟨x :: before, t, after, rfl, List.forall_mem_cons.2 ⟨⟨y, hx⟩, hbefore⟩, ht⟩
        | ok zs =>
          rw [hx, hxs] at h
          cases h
  · rintro ⟨before, x, after, rfl, hbefore, hx⟩
    induction before with
    | nil =>
      rw [List.nil_append, List.mapM_cons, hx]
      rfl
    | cons y before ih =>
      obtain ⟨⟨z, hy⟩, hbefore⟩ := List.forall_mem_cons.1 hbefore
      rw [List.cons_append, List.mapM_cons, hy, ih hbefore]
      rfl

lemma mapM_map_ok {g : γ → α} {k : γ → β} {xs : List γ} (h : ∀ x ∈ xs, f (g x) = .ok (k x)) :
    (xs.map g).mapM f = .ok (xs.map k) := by
  rw [mapM_eq_ok_iff, List.forall₂_map_left_iff, List.forall₂_map_right_iff]
  exact List.forall₂_same.2 h

end

end ArrayCalc

import ArrayCalc.Proofs.Decimal.Nearest
/-!
Shortest decimals read back.

* `toFloat_shortest`: the shortest decimal of a finite double reads as its absolute value;
* `whole_of_shortest`: if it is a whole number below the bound up to which whole numbers are written
  in full, then so is the double.
-/

namespace ArrayCalc.Decimal

/-- A binary fraction in decimal is the same number. -/
lemma value_exact (b : Scaled) : (Scientific.exact b).value = b.value := by
  rw [Scientific.exact]
  split_ifs with h
  · rw [Scaled.value_of_nonneg h, Nat.pow_eq, Scientific.value, zpow_zero, mul_one]
  · rw [Scaled.value_of_neg h, Nat.pow_eq, Scientific.value, zpow_of_neg h,
      show 10 = 5 * 2 by rfl, mul_pow]
    push_cast
    field_simp

/-- **The shortest decimal of a finite double reads as its absolute value**: if it was found it has
been tried, and if none was found it is exact. -/
theorem toFloat_shortest {x : Float} (h : IsFinite x) : (shortest x).toFloat = x.abs := by
  have hfull : (Scientific.exact (Scaled.ofFloat x)).toFloat = x.abs := by
    rw [toFloat_eq_nearest, value_exact, nearest_value (fits_ofFloat h), abs_eq h]
  unfold shortest
  extract_lets full count found
  cases hfound : found with
  | none => exact hfull
  | some s =>
    obtain ⟨n, -, hn⟩ := List.exists_of_findSome?_eq_some hfound
    simpa using List.find?_some hn

lemma ofFloat_abs {x : Float} (h : IsFinite x) : Scaled.ofFloat x.abs = Scaled.ofFloat x := by
  rw [abs_eq h, ofFloat_toFloat _ (fits_ofFloat h)]

lemma shortest_congr {x y : Float} (hx : IsFinite x) (hy : IsFinite y)
    (h : Scaled.ofFloat x = Scaled.ofFloat y) : shortest x = shortest y := by
  unfold shortest; rw [abs_eq hx, abs_eq hy, h]

/-- The bound itself has one digit. -/
lemma shortest_bound : shortest (Scientific.toFloat ⟨1, 16⟩) = ⟨1, 16⟩ := by decide +kernel

/-- A finite double whose shortest decimal is whole and below the bound is so itself.  It is the
double nearest to a small whole number; only the bound could be reached, and its shortest decimal is
not below it. -/
theorem whole_of_shortest {x : Float} (h : IsFinite x) {n : ℕ} (hn : n < 10 ^ 16)
    (hs : (shortest x).value = n) : ∃ m < 10 ^ 16, (Scaled.ofFloat x).whole? = some m := by
  obtain ⟨b, hb, hnear, m, hm, hvalue⟩ := exists_nearest_natCast hn.le
  have hx : Scaled.ofFloat x = b := by
    rw [← ofFloat_abs h, ← toFloat_shortest h, toFloat_eq_nearest, hs, hnear, ofFloat_toFloat _ hb]
  rcases hm.lt_or_eq with hlt | rfl
  · exact ⟨m, hlt, by rw [Scaled.whole?_eq_some_iff, hx, hvalue]⟩
  · exfalso
    have hy : Scientific.toFloat ⟨1, 16⟩ = b.toFloat .positive := by
      rw [toFloat_eq_nearest, ← nearest_value hb, hvalue, Scientific.value]
      norm_num
    have hbound : shortest x = ⟨1, 16⟩ := by
      rw [← shortest_bound]
      exact shortest_congr h (hy ▸ isFinite_toFloat _ hb) (by rw [hx, hy, ofFloat_toFloat _ hb])
    rw [hbound, Scientific.value] at hs
    norm_num at hs
    have hn16 : n = 10 ^ 16 := by exact_mod_cast hs.symm
    omega

end ArrayCalc.Decimal

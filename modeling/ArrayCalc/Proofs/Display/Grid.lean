import ArrayCalc.Proofs.Array.Carries
import ArrayCalc.Proofs.Array.Enumeration
import ArrayCalc.Proofs.Display.Rows
import Mathlib.Order.Bounds.Basic
/-!
Arrays as grids.

The text of an array comes out of a recursion along its shape.  It can be told without one, row by
row: the odometer of all axes but the last goes through the rows.

* `Display.length_columns`, `Display.take_drop_columns`: where the columns of a row are;
  `Display.isGreatest_width`: their width is the length of the longest text;
* `Display.cells_eq_stacked`: **texts along a shape are rows along the leading axes**, and between
  neighbours one line end for each axis that turns;
* `Display.textAt`, `Display.textsAt`, `Display.rowAt`: the text at an index, and the texts of the
  row at an index of the leading axes; `Display.Grid`: what all this comes to for an array;
* `Display.grid_of_shape`: **arrays are displayed as grids.**
-/

namespace ArrayCalc

namespace Display

/-! ### Columns -/

variable {w : Nat} {texts : List (List Char)}

lemma length_flushRight {text : List Char} (h : text.length ≤ w) :
    (flushRight w text).length = w := by
  rw [flushRight, List.length_append, List.length_replicate]
  omega

lemma length_columns (h : ∀ t ∈ texts, t.length ≤ w) :
    (columns w texts).length = texts.length * w + (texts.length - 1) := by
  induction texts with
  | nil => simp [columns]
  | cons t texts ih =>
    obtain ⟨ht, htexts⟩ := List.forall_mem_cons.mp h
    cases texts with
    | nil =>
      rw [columns_singleton, length_flushRight ht]
      simp
    | cons u texts =>
      have hrest := ih htexts
      rw [columns_cons_cons, List.length_append, length_flushRight ht, List.length_cons, hrest]
      simp only [List.length_cons, Nat.add_mul, Nat.one_mul]
      omega

/-- A text stands at the right end of its column. -/
lemma take_drop_columns (h : ∀ t ∈ texts, t.length ≤ w) {j : Nat} {t : List Char}
    (ht : texts[j]? = some t) :
    ((columns w texts).drop (j * (w + 1))).take w = flushRight w t := by
  induction texts generalizing j with
  | nil => cases ht
  | cons u texts ih =>
    obtain ⟨hu, htexts⟩ := List.forall_mem_cons.mp h
    have hfirst : ∀ rest, (flushRight w u ++ rest).take w = flushRight w u := fun rest =>
      List.take_left' (length_flushRight hu)
    cases j with
    | zero =>
      obtain rfl := Option.some.inj ht
      rw [Nat.zero_mul, List.drop_zero]
      cases texts with
      | nil =>
        have hrest := hfirst []
        rw [List.append_nil] at hrest
        rw [columns_singleton, hrest]
      | cons v texts => rw [columns_cons_cons, hfirst]
    | succ j =>
      rw [List.getElem?_cons_succ] at ht
      cases texts with
      | nil => cases ht
      | cons v texts =>
        -- the first column and the blank behind it are left out
        have hskip : (flushRight w u ++ [' ']).length = w + 1 := by
          rw [List.length_append, length_flushRight hu, List.length_singleton]
        rw [columns_cons_cons, ← List.singleton_append, ← List.append_assoc, Nat.succ_mul,
          Nat.add_comm, ← List.drop_drop, List.drop_left' hskip, ih htexts ht]

lemma length_le_width {t : List Char} (ht : t ∈ texts) : t.length ≤ width texts := by
  induction texts with
  | nil => cases ht
  | cons u texts ih =>
    rcases List.mem_cons.mp ht with rfl | ht
    · exact le_max_left _ _
    · exact le_max_of_le_right (ih ht)

/-- The width of columns is the length of the longest text. -/
lemma isGreatest_width (h : texts ≠ []) :
    IsGreatest {n | ∃ t ∈ texts, t.length = n} (width texts) := by
  refine ⟨?_, fun n ⟨t, ht, hn⟩ => hn ▸ length_le_width ht⟩
  induction texts with
  | nil => exact absurd rfl h
  | cons t texts ih =>
    have hwidth : width (t :: texts) = max t.length (width texts) := rfl
    rw [hwidth]
    rcases le_or_gt (width texts) t.length with hle | hlt
    · rw [max_eq_left hle]
      exact ⟨t, List.mem_cons_self, rfl⟩
    · have htexts : texts ≠ [] := by
        rintro rfl
        exact absurd hlt (Nat.not_lt_zero _)
      obtain ⟨u, hu, hlongest⟩ := ih htexts
      rw [max_eq_right hlt.le]
      exact ⟨u, List.mem_cons_of_mem t hu, hlongest⟩

/-! ### Rows -/

lemma cells_cons (e : Nat) {shape : List Nat} (h : shape ≠ []) (texts : List (List Char)) :
    cells (e :: shape) texts = (List.replicate shape.length '\n').intercalate
      ((cut (volume shape) e texts).map (cells shape)) := by
  obtain ⟨d, shape, rfl⟩ := List.exists_cons_of_ne_nil h
  rfl

/-- **Texts along a shape are rows along its leading axes.** -/
theorem cells_eq_stacked {outer : List Nat} (h : ∀ e ∈ outer, 0 < e) (cols : Nat)
    (f : List Int → List Char) :
    cells (outer ++ [cols]) ((odometer (Shape.extents (outer ++ [cols]))).map f) =
      stacked (fun axis => List.replicate (outer.length - axis) '\n')
        (fun i => [' '].intercalate ((List.range cols).map fun j => f (i ++ [Int.ofNat j])))
        (odometer (Shape.extents outer)) := by
  induction outer generalizing f with
  | nil =>
    have hlast : odometer (Shape.extents [cols]) =
        (List.range cols).map fun j => [Int.ofNat j] := (List.map_eq_flatMap ..).symm
    show [' '].intercalate ((odometer (Shape.extents [cols])).map f) = _
    rw [hlast, List.map_map]
    rfl
  | cons e outer ih =>
    obtain ⟨-, houter⟩ := List.forall_mem_cons.mp h
    have hne : outer ++ [cols] ≠ [] := List.append_ne_nil_of_right_ne_nil _ (List.cons_ne_nil _ _)
    have hlength : (outer ++ [cols]).length = outer.length + 1 := List.length_append
    have hbelow : ∀ axis, outer.length + 1 - (axis + 1) = outer.length - axis := fun axis =>
      Nat.add_sub_add_right _ _ _
    rw [List.cons_append, cells_cons e hne, cut_map_odometer, stacked_odometer_cons e houter,
      hlength, List.map_map]
    simp only [List.length_cons, Nat.sub_zero, hbelow, Function.comp_def, ih houter,
      List.cons_append]

/-! ### Arrays -/

section Arrays

variable (k : Kind) (a : Dense k.Elem)

/-- The text of the element at an index. -/
def textAt (index : List Int) : List Char :=
  match a.get index with
  | .ok x => element k x
  | .error _ => []

/-- The texts of the row at an index of the leading axes. -/
def textsAt (cols : Nat) (index : List Int) : List (List Char) :=
  (List.range cols).map fun j => textAt k a (index ++ [Int.ofNat j])

/-- The row at an index of the leading axes. -/
def rowAt (cols w : Nat) (index : List Int) : List Char := columns w (textsAt k a cols index)

lemma length_textsAt (cols : Nat) (index : List Int) :
    (textsAt k a cols index).length = cols := by
  rw [textsAt, List.length_map, List.length_range]

/-- The texts of an array are those at its indices, in the order of the odometer. -/
lemma map_textAt_odometer :
    (odometer (Shape.extents a.shape)).map (textAt k a) = (Noun.array k a).texts := by
  have htext : textAt k a = (fun r : Except ShapeError k.Elem =>
      (r.toOption.map (element k)).getD []) ∘ a.get := by
    funext index
    rw [textAt, Function.comp_apply]
    cases a.get index <;> rfl
  rw [htext, ← List.map_map, a.map_get_odometer, List.map_map, Noun.texts_eq]
  rfl

/-- An array as a grid: rows of `cols` texts each, in columns of width `w`. -/
structure Grid (outer : List Nat) (cols w : Nat) : Prop where
  /-- Columns are as wide as the longest text. -/
  width : IsGreatest {n | ∃ t ∈ (Noun.array k a).texts, t.length = n} w
  /-- The texts of a row are those of the elements at its indices. -/
  element : ∀ i ∈ odometer (Shape.extents outer), ∀ j < cols,
    ∃ x, a.get (i ++ [Int.ofNat j]) = .ok x ∧ textAt k a (i ++ [Int.ofNat j]) = element k x
  /-- The rows come in the order of the odometer of all axes but the last.  Between neighbours that
  differ first at some axis there are as many line ends as axes below it. -/
  display : (Noun.array k a).display.toList =
    stacked (fun axis => List.replicate (a.rank - 1 - axis) '\n') (rowAt k a cols w)
      (odometer (Shape.extents outer))
  /-- A row is one line. -/
  oneLine : ∀ i ∈ odometer (Shape.extents outer), '\n' ∉ rowAt k a cols w i
  /-- All rows have one length. -/
  length : ∀ i ∈ odometer (Shape.extents outer),
    (rowAt k a cols w i).length = cols * w + (cols - 1)
  /-- A text stands at the right end of its column, which is at one place in all rows. -/
  column : ∀ i ∈ odometer (Shape.extents outer), ∀ j < cols,
    ((rowAt k a cols w i).drop (j * (w + 1))).take w =
      flushRight w (textAt k a (i ++ [Int.ofNat j]))

variable {k a} {outer : List Nat} {cols : Nat}

/-- The indices of an array are those of the rows, with a place in the row behind. -/
lemma mem_odometer_of_row (hshape : a.shape = outer ++ [cols]) {index : List Int} :
    index ∈ odometer (Shape.extents a.shape) ↔ ∃ i ∈ odometer (Shape.extents outer),
      ∃ j < cols, index = i ++ [Int.ofNat j] := by
  have hlast : ∀ {j : List Int}, j ∈ odometer (Shape.extents [cols]) ↔
      ∃ n < cols, j = [Int.ofNat n] := by
    intro j
    rw [Shape.extents, List.map_singleton, mem_odometer_cons]
    simp [odometer]
  rw [hshape, Shape.extents_append, mem_odometer_append]
  constructor
  · rintro ⟨i, hi, j, hj, rfl⟩
    obtain ⟨n, hn, rfl⟩ := hlast.mp hj
    exact ⟨i, hi, n, hn, rfl⟩
  · rintro ⟨i, hi, n, hn, rfl⟩
    exact ⟨i, hi, _, hlast.mpr ⟨n, hn, rfl⟩, rfl⟩

/-- The texts of a row are texts of the array. -/
lemma mem_texts_of_textsAt (hshape : a.shape = outer ++ [cols]) {i : List Int}
    (hi : i ∈ odometer (Shape.extents outer)) :
    ∀ t ∈ textsAt k a cols i, t ∈ (Noun.array k a).texts := by
  intro t ht
  obtain ⟨j, hj, rfl⟩ := List.mem_map.mp ht
  rw [← map_textAt_odometer]
  exact List.mem_map_of_mem
    ((mem_odometer_of_row hshape).mpr ⟨i, hi, j, List.mem_range.mp hj, rfl⟩)

/-- Columns of numerals are one line. -/
lemma newline_not_mem_columns {w : Nat} {texts : List (List Char)}
    (h : ∀ t ∈ texts, Lexer.IsNumeral t) : '\n' ∉ columns w texts := by
  intro hmem
  obtain hblank | ⟨cell, hcell, hmem⟩ := mem_of_mem_intercalate hmem
  · exact absurd hblank (by decide)
  · obtain ⟨t, ht, rfl⟩ := List.mem_map.mp hcell
    rcases List.mem_append.mp hmem with hmem | hmem
    · exact absurd (List.eq_of_mem_replicate hmem) (by decide)
    · exact (h t ht).not_mem_newline hmem

lemma rank_sub_one (hshape : a.shape = outer ++ [cols]) : a.rank - 1 = outer.length := by
  rw [Dense.rank, hshape, List.length_append]
  rfl

/-- **Arrays are displayed as grids.** -/
theorem grid_of_shape (hshape : a.shape = outer ++ [cols]) (h : ∀ e ∈ a.shape, 0 < e) :
    Grid k a outer cols (width (Noun.array k a).texts) where
  width := by
    refine isGreatest_width ?_
    rw [← map_textAt_odometer, Ne, List.map_eq_nil_iff]
    exact odometer_ne_nil h
  element i hi j hj := by
    obtain ⟨-, x, -, -, hget⟩ :=
      a.exists_get_of_mem ((mem_odometer_of_row hshape).mpr ⟨i, hi, j, hj, rfl⟩)
    refine ⟨x, hget, ?_⟩
    rw [textAt, hget]
  display := by
    have houter : ∀ e ∈ outer, 0 < e := fun e he =>
      h e (hshape ▸ List.mem_append_left _ he)
    have hempty : ¬ a.shape.isEmpty = true := by
      rw [hshape]
      simp
    have htexts : a.data.map (Display.element k) = (Noun.array k a).texts :=
      (Noun.texts_eq (Noun.array k a)).symm
    rw [Noun.display, String.toList_ofList]
    show array a.shape (a.data.map (Display.element k)) = _
    rw [htexts, array, if_neg hempty]
    generalize width (Noun.array k a).texts = w
    have hrow : rowAt k a cols w = fun i => [' '].intercalate ((List.range cols).map fun j =>
        (flushRight w ∘ textAt k a) (i ++ [Int.ofNat j])) := by
      funext i
      rw [rowAt, textsAt, columns, List.map_map]
      rfl
    rw [← map_textAt_odometer, List.map_map, hshape, cells_eq_stacked houter,
      rank_sub_one hshape, hrow]
  oneLine i hi := newline_not_mem_columns fun t ht =>
    Noun.isNumeral_of_mem_texts (mem_texts_of_textsAt hshape hi t ht)
  length i hi := by
    have hlength := length_columns fun t ht =>
      length_le_width (mem_texts_of_textsAt (k := k) hshape hi t ht)
    rwa [length_textsAt] at hlength
  column i hi j hj := by
    refine take_drop_columns (fun t ht => length_le_width (mem_texts_of_textsAt hshape hi t ht)) ?_
    simp [textsAt, hj]

end Arrays

end Display

end ArrayCalc

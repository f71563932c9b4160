import ArrayCalc.Proofs.Display.Grid
/-!
Displays that tell arrays apart.

What makes rows and columns can be found again in the text of an array: lines by the line ends
between them, the shape by how many these are, and the texts in a line by the blanks between them.
This needs two elements along each axis, as a single one leaves no trace of the axis.

* `stacked_injective`: **lines with line ends between them are found again**, and how many line ends
  there are; `columns_injective`: and so are numerals in columns, whatever the width of these is;
* `Display.Grid.unique`, `Display.texts_eq_of_display_eq`: two arrays with one display have one
  shape and the same texts; `quantities_eq_of_texts_eq`: so they say the same;
* `arrays_display_as_grids`: **the display of an array is a grid**, and tells its shape and what its
  elements say.
-/

namespace ArrayCalc

open Display Lexer

/-! ### Lines -/

/-- Two texts that begin with characters of one sort, and go on with another one, are parted at the
same place. -/
lemma eq_of_append_eq {p : Char → Bool} {s s' rest rest' : List Char}
    (hs : ∀ c ∈ s, p c = true) (hs' : ∀ c ∈ s', p c = true)
    (hrest : ∀ c ∈ rest.head?, p c = false) (hrest' : ∀ c ∈ rest'.head?, p c = false)
    (h : s ++ rest = s' ++ rest') : s = s' ∧ rest = rest' := by
  have htake : ∀ {s rest : List Char}, (∀ c ∈ s, p c = true) → (∀ c ∈ rest.head?, p c = false) →
      (s ++ rest).takeWhile p = s := by
    intro s rest hs hrest
    rw [List.takeWhile_append_of_pos hs]
    cases rest with
    | nil => exact List.append_nil s
    | cons c rest =>
      rw [List.takeWhile_cons_of_neg (by simp [hrest c rfl]), List.append_nil]
  have hsame : s = s' := by rw [← htake hs hrest, h, htake hs' hrest']
  subst hsame
  exact ⟨rfl, List.append_cancel_left h⟩

/-- A line, some line ends and then another line. -/
lemma eq_of_lines_eq {line line' rest rest' : List Char} {n n' : Nat} (hline : '\n' ∉ line)
    (hline' : '\n' ∉ line') (hn : 0 < n) (hn' : 0 < n') (hrest : '\n' ∉ rest.head?)
    (hrest' : '\n' ∉ rest'.head?)
    (h : line ++ (List.replicate n '\n' ++ rest) = line' ++ (List.replicate n' '\n' ++ rest')) :
    line = line' ∧ n = n' ∧ rest = rest' := by
  have hchars : ∀ {s : List Char}, '\n' ∉ s → ∀ c ∈ s, (c != '\n') = true := fun hs c hc =>
    bne_iff_ne.mpr (ne_of_mem_of_not_mem hc hs)
  have hends : ∀ {n : Nat} {rest : List Char}, 0 < n →
      ∀ c ∈ (List.replicate n '\n' ++ rest).head?, (c != '\n') = false := by
    intro n rest hn c hc
    obtain ⟨m, rfl⟩ := Nat.exists_eq_add_of_lt hn
    rw [Nat.zero_add, List.replicate_succ, List.cons_append, List.head?_cons] at hc
    rw [← Option.some.inj hc]
    rfl
  have hgap : ∀ {n : Nat}, ∀ c ∈ List.replicate n '\n', (c == '\n') = true := fun c hc =>
    beq_iff_eq.mpr (List.eq_of_mem_replicate hc)
  have hnext : ∀ {rest : List Char}, '\n' ∉ rest.head? → ∀ c ∈ rest.head?, (c == '\n') = false :=
    fun hrest c hc => beq_eq_false_iff_ne.mpr (ne_of_mem_of_not_mem hc hrest)
  obtain ⟨hsame, h⟩ :=
    eq_of_append_eq (hchars hline) (hchars hline') (hends hn) (hends hn') h
  obtain ⟨hcount, h⟩ := eq_of_append_eq hgap hgap (hnext hrest) (hnext hrest') h
  have hlength := congrArg List.length hcount
  rw [List.length_replicate, List.length_replicate] at hlength
  exact ⟨hsame, hlength, h⟩

section Stacked

variable {row row' : List Int → List Char} {f g : Nat → Nat}

lemma head?_stacked {gap : Nat → List Char} {i : List Int} {is : List (List Int)}
    (h : row i ≠ []) : (stacked gap row (i :: is)).head? = (row i).head? := by
  cases is with
  | nil => rfl
  | cons j is => rw [stacked, List.head?_append_of_ne_nil _ h]

lemma newline_mem_stacked {i j : List Int} {is : List (List Int)} (h : 0 < f (divergence i j)) :
    '\n' ∈ stacked (fun axis => List.replicate (f axis) '\n') row (i :: j :: is) := by
  rw [stacked]
  refine List.mem_append_right _ (List.mem_append_left _ ?_)
  exact List.mem_replicate.mpr ⟨h.ne', rfl⟩

/-- **Lines with line ends between them are found again**, and how many line ends there are. -/
theorem stacked_injective {is js : List (List Int)} (his : is ≠ []) (hjs : js ≠ [])
    (hrow : ∀ i ∈ is, row i ≠ [] ∧ '\n' ∉ row i) (hrow' : ∀ j ∈ js, row' j ≠ [] ∧ '\n' ∉ row' j)
    (hf : ∀ n ∈ stacked (fun axis => [f axis]) (fun _ => []) is, 0 < n)
    (hg : ∀ n ∈ stacked (fun axis => [g axis]) (fun _ => []) js, 0 < n)
    (h : stacked (fun axis => List.replicate (f axis) '\n') row is =
      stacked (fun axis => List.replicate (g axis) '\n') row' js) :
    is.map row = js.map row' ∧ stacked (fun axis => [f axis]) (fun _ => []) is =
      stacked (fun axis => [g axis]) (fun _ => []) js := by
  induction is generalizing js with
  | nil => exact absurd rfl his
  | cons i is ih =>
    obtain ⟨j, js, rfl⟩ := List.exists_cons_of_ne_nil hjs
    obtain ⟨⟨-, hline⟩, hrow⟩ := List.forall_mem_cons.mp hrow
    obtain ⟨⟨-, hline'⟩, hrow'⟩ := List.forall_mem_cons.mp hrow'
    cases is with
    | nil =>
      cases js with
      | nil => exact ⟨congrArg (fun line => [line]) h, rfl⟩
      | cons j' js =>
        -- a single line has no line ends
        have hend :
            '\n' ∈ stacked (fun axis => List.replicate (g axis) '\n') row' (j :: j' :: js) :=
          newline_mem_stacked (List.forall_mem_cons.mp hg).1
        rw [← h] at hend
        exact absurd hend hline
    | cons i' is =>
      cases js with
      | nil =>
        have hend :
            '\n' ∈ stacked (fun axis => List.replicate (f axis) '\n') row (i :: i' :: is) :=
          newline_mem_stacked (List.forall_mem_cons.mp hf).1
        rw [h] at hend
        exact absurd hend hline'
      | cons j' js =>
        obtain ⟨hn, hf⟩ := List.forall_mem_cons.mp hf
        obtain ⟨hn', hg⟩ := List.forall_mem_cons.mp hg
        have hnext : ∀ {row : List Int → List Char} {gap : Nat → List Char} {i : List Int}
            {is : List (List Int)}, row i ≠ [] ∧ '\n' ∉ row i →
            '\n' ∉ (stacked gap row (i :: is)).head? := by
          intro row gap i is hi hmem
          rw [head?_stacked hi.1] at hmem
          exact hi.2 (List.mem_of_head? hmem)
        obtain ⟨hsame, hcount, hrest⟩ := eq_of_lines_eq hline hline' hn hn'
          (hnext (hrow i' List.mem_cons_self)) (hnext (hrow' j' List.mem_cons_self)) h
        obtain ⟨hrows, hturns⟩ := ih (List.cons_ne_nil i' is) (List.cons_ne_nil j' js) hrow hrow'
          hf hg hrest
        exact ⟨congrArg₂ List.cons hsame hrows, congrArg₂ List.cons hcount hturns⟩

end Stacked

/-! ### Columns -/

/-- **Numerals in columns are found again**, whatever the width of the columns is. -/
theorem columns_injective {w w' : Nat} {texts texts' : List (List Char)} (hne : texts ≠ [])
    (hne' : texts' ≠ []) (hnumerals : ∀ t ∈ texts, IsNumeral t)
    (hnumerals' : ∀ t ∈ texts', IsNumeral t) (h : columns w texts = columns w' texts') :
    texts = texts' := by
  obtain ⟨t, e, htokens, -, hparts, -⟩ := tokenize_columns w hne hnumerals
  obtain ⟨t', e', htokens', -, hparts', -⟩ := tokenize_columns w' hne' hnumerals'
  rw [h, htokens'] at htokens
  rw [(List.cons.inj (Except.ok.inj htokens)).1, hparts] at hparts'
  exact List.map_injective_iff.mpr (fun _ _ => String.ofList_injective) hparts'

/-- There is a space between columns. -/
lemma space_mem_columns {w : Nat} {texts : List (List Char)} (h : 2 ≤ texts.length) :
    ' ' ∈ columns w texts := by
  obtain _ | ⟨t, _ | ⟨u, texts⟩⟩ := texts
  · cases h
  · exact absurd h (by simp)
  · rw [columns_cons_cons]
    exact List.mem_append_right _ List.mem_cons_self

/-! ### Arrays -/

namespace Display

variable {k l : Kind} {a : Dense k.Elem} {b : Dense l.Elem} {outer outer' : List Nat}
  {cols cols' w w' : Nat}

/-- Elements in a row are numerals. -/
lemma isNumeral_of_mem_textsAt (hshape : a.shape = outer ++ [cols]) {i : List Int}
    (hi : i ∈ odometer (Shape.extents outer)) : ∀ t ∈ textsAt k a cols i, IsNumeral t :=
  fun t ht => Noun.isNumeral_of_mem_texts (mem_texts_of_textsAt hshape hi t ht)

lemma textsAt_ne_nil (hcols : 2 ≤ cols) (i : List Int) : textsAt k a cols i ≠ [] := by
  rw [← List.length_pos_iff, length_textsAt]
  omega

lemma Grid.rows (h : Grid k a outer cols w) (hcols : 2 ≤ cols) :
    ∀ i ∈ odometer (Shape.extents outer),
      rowAt k a cols w i ≠ [] ∧ '\n' ∉ rowAt k a cols w i := by
  refine fun i hi => ⟨?_, h.oneLine i hi⟩
  rw [← List.length_pos_iff, h.length i hi]
  omega

/-- **Grids are found again** if no extent is less than two. -/
theorem Grid.unique (ha : Grid k a outer cols w) (hb : Grid l b outer' cols' w')
    (hshape : a.shape = outer ++ [cols]) (hshape' : b.shape = outer' ++ [cols'])
    (hextents : ∀ e ∈ a.shape, 2 ≤ e) (hextents' : ∀ e ∈ b.shape, 2 ≤ e)
    (h : (Noun.array k a).display = (Noun.array l b).display) :
    a.shape = b.shape ∧ (Noun.array k a).texts = (Noun.array l b).texts := by
  rw [hshape, List.forall_mem_append, List.forall_mem_singleton] at hextents
  rw [hshape', List.forall_mem_append, List.forall_mem_singleton] at hextents'
  obtain ⟨houter, hcols⟩ := hextents
  obtain ⟨houter', hcols'⟩ := hextents'
  have hpos := pos_of_two_le houter
  have hpos' := pos_of_two_le houter'
  have hdisplay := ha.display.symm.trans ((congrArg String.toList h).trans hb.display)
  rw [rank_sub_one hshape, rank_sub_one hshape'] at hdisplay
  obtain ⟨hrows, hturns⟩ := stacked_injective (odometer_ne_nil hpos) (odometer_ne_nil hpos')
    (ha.rows hcols) (hb.rows hcols') (fun n hn => (mem_turns hpos hn).1)
    (fun n hn => (mem_turns hpos' hn).1) hdisplay
  obtain rfl := turns_injective houter houter' hturns
  have htexts : ∀ i ∈ odometer (Shape.extents outer), textsAt k a cols i = textsAt l b cols' i :=
    fun i hi => columns_injective (textsAt_ne_nil hcols i) (textsAt_ne_nil hcols' i)
      (isNumeral_of_mem_textsAt hshape hi) (isNumeral_of_mem_textsAt hshape' hi)
      (List.map_inj_left.mp hrows i hi)
  -- there is a row, and it tells how long rows are
  obtain ⟨i, hi⟩ := List.exists_mem_of_ne_nil _ (odometer_ne_nil hpos)
  have hsame : cols = cols' := by rw [← length_textsAt k a cols i, htexts i hi, length_textsAt]
  subst hsame
  have hshapes : a.shape = b.shape := hshape.trans hshape'.symm
  refine ⟨hshapes, ?_⟩
  rw [← map_textAt_odometer, ← map_textAt_odometer, ← hshapes]
  refine List.map_congr_left fun index hindex => ?_
  obtain ⟨i, hi, j, hj, rfl⟩ := (mem_odometer_of_row hshape).mp hindex
  exact List.map_inj_left.mp (htexts i hi) j (List.mem_range.mpr hj)

lemma exists_eq_append_of_ne_nil {shape : List Nat} (h : shape ≠ []) :
    ∃ outer cols, shape = outer ++ [cols] :=
  ⟨_, _, (List.dropLast_append_getLast h).symm⟩

/-- An array without axes is displayed as its only text. -/
lemma exists_text_of_shape_eq_nil (h : a.shape = []) : ∃ t,
    (Noun.array k a).texts = [t] ∧ (Noun.array k a).display = String.ofList t := by
  have htexts : (Noun.array k a).texts = [textAt k a []] := by
    rw [← map_textAt_odometer, h]
    rfl
  have hrank : (Noun.array k a).rank ≤ 1 := by
    show a.shape.length ≤ 1
    rw [h]
    exact Nat.zero_le 1
  refine ⟨_, htexts, ?_⟩
  rw [Noun.display_eq_row hrank, htexts, row_singleton]

/-- The display of a single element has no spaces; that of several elements has some. -/
lemma space_mem_display_iff (h : ∀ e ∈ a.shape, 2 ≤ e) :
    ' ' ∈ (Noun.array k a).display.toList ↔ a.shape ≠ [] := by
  constructor
  · rintro hspace hshape
    obtain ⟨t, htexts, hdisplay⟩ := exists_text_of_shape_eq_nil (k := k) hshape
    rw [hdisplay, String.toList_ofList] at hspace
    exact (Noun.isNumeral_of_mem_texts (htexts ▸ List.mem_singleton_self t)).not_mem_space hspace
  · intro hshape
    obtain ⟨outer, cols, hshape⟩ := exists_eq_append_of_ne_nil hshape
    have hgrid := grid_of_shape (k := k) hshape (pos_of_two_le h)
    rw [hshape, List.forall_mem_append, List.forall_mem_singleton] at h
    obtain ⟨i, hi⟩ := List.exists_mem_of_ne_nil _ (odometer_ne_nil (pos_of_two_le h.1))
    rw [hgrid.display]
    exact mem_stacked hi (space_mem_columns ((length_textsAt k a cols i).symm ▸ h.2))

/-- **Arrays with one display have one shape and the same texts** if no extent is less than two. -/
theorem texts_eq_of_display_eq (ha : ∀ e ∈ a.shape, 2 ≤ e) (hb : ∀ e ∈ b.shape, 2 ≤ e)
    (h : (Noun.array k a).display = (Noun.array l b).display) :
    a.shape = b.shape ∧ (Noun.array k a).texts = (Noun.array l b).texts := by
  have haxes : a.shape ≠ [] ↔ b.shape ≠ [] := by
    rw [← space_mem_display_iff ha, ← space_mem_display_iff hb, h]
  by_cases hshape : a.shape = []
  · have hshape' : b.shape = [] := not_not.mp fun hne => haxes.mpr hne hshape
    obtain ⟨t, ht, hdisplay⟩ := exists_text_of_shape_eq_nil (k := k) hshape
    obtain ⟨u, hu, hdisplay'⟩ := exists_text_of_shape_eq_nil (k := l) hshape'
    rw [hdisplay, hdisplay'] at h
    rw [ht, hu, String.ofList_injective h]
    exact ⟨hshape.trans hshape'.symm, rfl⟩
  · obtain ⟨outer, cols, hshape⟩ := exists_eq_append_of_ne_nil hshape
    obtain ⟨outer', cols', hshape'⟩ := exists_eq_append_of_ne_nil (haxes.mp ‹_›)
    exact (grid_of_shape hshape (pos_of_two_le ha)).unique
      (grid_of_shape hshape' (pos_of_two_le hb)) hshape hshape' ha hb h

end Display

/-- Nouns with the same texts say the same. -/
lemma quantities_eq_of_texts_eq {n m : Noun} (h : n.texts = m.texts) :
    n.elements.map Element.quantity = m.elements.map Element.quantity := by
  have : Nonempty Quantity := ⟨.undefined⟩
  obtain ⟨meaning, hmeaning⟩ := (Function.factorsThrough_iff Element.quantity).mp
    fun (d e : Element) => Element.quantity_eq_of_text_eq
  rw [hmeaning, ← List.map_map, ← List.map_map]
  exact congrArg (List.map meaning) h

/-- **Arrays are displayed as grids, which tell them apart.**  An array with axes, and with elements
along all of them, is displayed row by row, in columns as wide as the longest text, and neighbours
that differ first at some axis are parted by as many line ends as there are axes below it.  Two
arrays that are displayed alike have the same shape, if all extents are at least two, and elements
that say the same, whatever their kinds. -/
theorem arrays_display_as_grids (k : Kind) (a : Dense k.Elem) :
    (∀ outer cols, a.shape = outer ++ [cols] → (∀ e ∈ a.shape, 0 < e) →
      ∃ w, Grid k a outer cols w) ∧
    ∀ (l : Kind) (b : Dense l.Elem), (∀ e ∈ a.shape, 2 ≤ e) → (∀ e ∈ b.shape, 2 ≤ e) →
      (Noun.array k a).display = (Noun.array l b).display →
      a.shape = b.shape ∧ (Noun.array k a).elements.map Element.quantity =
        (Noun.array l b).elements.map Element.quantity := by
  refine ⟨fun outer cols hshape hpos => ⟨_, grid_of_shape hshape hpos⟩, fun l b ha hb h => ?_⟩
  obtain ⟨hshape, htexts⟩ := texts_eq_of_display_eq ha hb h
  exact ⟨hshape, quantities_eq_of_texts_eq htexts⟩

/-- Two planes of integers, and a table of truth values that is displayed like one of decimals. -/
theorem grids_of_planes_and_tables :
    let a : Dense Int64 := ⟨[2, 2, 2], [1, 20, -3, 4, 5, 6, 7, 8], rfl⟩
    let b : Dense Bool := ⟨[2, 2], [true, false, false, true], rfl⟩
    let c : Dense Float := ⟨[2, 2], [1, -(0 : Float), 0, 1], rfl⟩
    ((∀ e ∈ a.shape, 0 < e) ∧ a.shape = [2, 2] ++ [2] ∧
      (Noun.array .integer a).display = " 1 20\n_3  4\n\n 5  6\n 7  8" ∧
      ∃ w, Grid .integer a [2, 2] 2 w) ∧
    (∀ e ∈ b.shape, 2 ≤ e) ∧ (∀ e ∈ c.shape, 2 ≤ e) ∧
      (Noun.array .boolean b).display = (Noun.array .decimal c).display ∧
      b.shape = c.shape ∧ (Noun.array .boolean b).elements.map Element.quantity =
        (Noun.array .decimal c).elements.map Element.quantity := by
  intro a b c
  have hpos : ∀ e ∈ a.shape, 0 < e := by decide
  have hb : ∀ e ∈ b.shape, 2 ≤ e := by decide
  have hc : ∀ e ∈ c.shape, 2 ≤ e := by decide
  have hdisplay : (Noun.array .boolean b).display = (Noun.array .decimal c).display := by
    decide +kernel
  refine ⟨⟨hpos, rfl, by decide +kernel, ?_⟩, hb, hc, hdisplay, ?_⟩
  · exact (arrays_display_as_grids .integer a).1 [2, 2] 2 rfl hpos
  · exact (arrays_display_as_grids .boolean b).2 .decimal c hb hc hdisplay

end ArrayCalc

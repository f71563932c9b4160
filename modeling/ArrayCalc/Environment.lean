import ArrayCalc.Noun
/-!
Environments.

* `Environment`: names and the nouns bound to them, each name once, in the order of first binding;
* `Environment.get?`, `Environment.set`, `Environment.erase`: looking a name up, binding it, and
  giving it up;
* `Environment.names`: the bound names in order of code points.
-/

namespace ArrayCalc

/-- Names and the nouns bound to them. -/
structure Environment where
  bindings : List (String × Noun)
  distinct : (bindings.map Prod.fst).Nodup

namespace Environment

/-- Nothing is bound. -/
def empty : Environment := ⟨[], List.nodup_nil⟩

/-- The noun bound to a name. -/
def get? (env : Environment) (name : String) : Option Noun := env.bindings.lookup name

/-- Whether a name is bound. -/
def contains (env : Environment) (name : String) : Bool := (env.get? name).isSome

/-- The number of bound names. -/
def size (env : Environment) : Nat := env.bindings.length

/-- Bindings with a name bound anew: in its old place, or else at the end. -/
def assign (name : String) (value : Noun) : List (String × Noun) → List (String × Noun)
  | [] => [(name, value)]
  | b :: bs => if b.1 = name then (name, value) :: bs else b :: assign name value bs

theorem map_fst_assign (name : String) (value : Noun) (bs : List (String × Noun)) :
    (assign name value bs).map Prod.fst =
      if name ∈ bs.map Prod.fst then bs.map Prod.fst else bs.map Prod.fst ++ [name] := by
  induction bs with
  | nil => rfl
  | cons b bs ih =>
    rw [assign]
    by_cases h : b.1 = name
    · simp [h]
    · rw [if_neg h, List.map_cons, ih, List.map_cons]
      by_cases hm : name ∈ bs.map Prod.fst
      · rw [if_pos hm, if_pos (List.mem_cons_of_mem _ hm)]
      · rw [if_neg hm, if_neg (fun hc => (List.mem_cons.1 hc).elim (fun e => h e.symm) hm)]
        rfl

/-- The environment with a name bound to a noun. -/
def set (env : Environment) (name : String) (value : Noun) : Environment :=
  ⟨assign name value env.bindings, by
    rw [map_fst_assign]
    split
    · exact env.distinct
    · rename_i h
      exact List.nodup_append.2 ⟨env.distinct, by simp, fun a ha b hb e =>
        h (by rw [← List.mem_singleton.1 hb, ← e]; exact ha)⟩⟩

/-- The environment without a name. -/
def erase (env : Environment) (name : String) : Environment :=
  ⟨env.bindings.filter fun b => b.1 != name, env.distinct.sublist (List.filter_sublist.map _)⟩

theorem lookup_assign (name other : String) (value : Noun) (bs : List (String × Noun)) :
    (assign name value bs).lookup other = if other = name then some value else bs.lookup other := by
  induction bs with
  | nil =>
    rw [assign, List.lookup_cons, List.lookup_nil]
    by_cases h : other = name
    · simp [h]
    · simp [h, beq_false_of_ne h]
  | cons b bs ih =>
    obtain ⟨key, noun⟩ := b
    rw [assign]
    by_cases hb : key = name
    · rw [if_pos hb, List.lookup_cons, List.lookup_cons, hb]
      by_cases h : other = name
      · simp [h]
      · simp [h, beq_false_of_ne h]
    · rw [if_neg hb, List.lookup_cons, List.lookup_cons, ih]
      by_cases h : other = name
      · have hk : other ≠ key := fun e => hb (e ▸ h)
        simp [h, beq_false_of_ne (h ▸ hk)]
      · simp [h]

/-- Binding a name changes that name alone. -/
theorem get?_set (env : Environment) (name other : String) (value : Noun) :
    (env.set name value).get? other = if other = name then some value else env.get? other :=
  lookup_assign name other value env.bindings

theorem get?_set_self (env : Environment) (name : String) (value : Noun) :
    (env.set name value).get? name = some value := by simp [get?_set]

theorem get?_set_of_ne (env : Environment) {name other : String} (value : Noun)
    (h : other ≠ name) : (env.set name value).get? other = env.get? other := by
  simp [get?_set, h]

/-- The bound names in order of code points. -/
def names (env : Environment) : List String :=
  (env.bindings.map Prod.fst).mergeSort fun a b => decide (a ≤ b)

/-! ### Bindings from outside -/

/-- The place that a binding has in messages. -/
def place (name : String) : String := "env[" ++ Text.quoted name ++ "]"

/-- A name bound to something from outside, refused unless it is a noun. -/
def bind (env : Environment) (name : String) (value : Host) : Except Error Environment := do
  return env.set name (← value.validate (place name))

/-- The noun bound to a name, or the complaint that there is none. -/
def get (env : Environment) (name : String) : Except Error Noun :=
  match env.get? name with
  | some n => .ok n
  | none => .error (.unbound name)

/-- The environment without a name that was bound in it. -/
def remove (env : Environment) (name : String) : Except Error Environment :=
  if env.contains name then .ok (env.erase name) else .error (.unbound name)

/-- An environment of bindings from outside, one after the other. -/
def ofBindings (bs : List (String × Host)) : Except Error Environment :=
  bs.foldlM (fun env b => env.bind b.1 b.2) empty

end Environment

end ArrayCalc

/-!
Valences.  A verb is applied to the noun on its right alone or to one on either side.
-/

namespace ArrayCalc

/-- On how many sides a verb takes a noun. -/
inductive Valence where
  | monadic
  | dyadic
  deriving DecidableEq, Repr

namespace Valence

/-- The word for a valence inside a sentence. -/
def name : Valence → String
  | monadic => "monadic"
  | dyadic => "dyadic"

/-- The word for a valence at the head of a sentence. -/
def title : Valence → String
  | monadic => "Monadic"
  | dyadic => "Dyadic"

end Valence

end ArrayCalc

/-! Lookup in the tables of character properties. A property is the increasing list of the code
points where it switches on and off; a case table is a list of evenly spaced runs. -/
namespace TemplateEngine.Text.Character

/-- Whether a property that switches at `boundaries` holds of the code point `c`. -/
def holdsAt (c : Nat) : (boundaries : List Nat) → Bool
  | first :: after :: rest => decide (first ≤ c) && (decide (c < after) || holdsAt c rest)
  | [first] => decide (first ≤ c)
  | [] => false

/-- The characters `first`, `first + step`, … `last` have the images `image`, `image + step`, …. -/
structure CaseRun where
  first : Nat
  last : Nat
  step : Nat
  image : Nat

def CaseRun.image? (run : CaseRun) (c : Nat) : Option Nat :=
  if run.first ≤ c ∧ c ≤ run.last ∧ (c - run.first) % run.step = 0 then
    some (run.image + (c - run.first))
  else
    none

end TemplateEngine.Text.Character

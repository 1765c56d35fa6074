import TemplateEngine.Decimal.Binary64
import TemplateEngine.Decimal.Integer

/-! The shortest decimal that reads back as a given floating-point number, and of several that
short the nearest to it. -/
namespace TemplateEngine.Decimal

/-- The number `0.d₁d₂… * 10 ^ point` with the given digits; the last one is not zero. -/
structure Scientific where
  digits : List Char
  point : Int
  deriving DecidableEq, Repr

/-- The numbers `num * 10 ^ e` and `den` in one quotient without a negative power. -/
def scaleByTen (num den : Nat) (e : Int) : Nat × Nat :=
  if 0 ≤ e then (num * Nat.pow 10 e.toNat, den) else (num, den * Nat.pow 10 (-e).toNat)

/-- The exponent `k` with `10 ^ (k - 1) ≤ num / den < 10 ^ k`. -/
def magnitude (num den : Nat) : Int :=
  let guess := ((num.log2 : Int) - den.log2) * 30103 / 100000
  let below (k : Int) : Bool := let (n, d) := scaleByTen num den (-k); n < d
  ([guess - 1, guess, guess + 1].find? below).getD (guess + 2)

/-- The reals that round to a number, as quotients over one denominator: the number itself, both
ends, and whether the ends are among them. -/
structure Interval where
  low : Nat
  mid : Nat
  high : Nat
  den : Nat
  closed : Bool

/-- Half the distance to either neighbour; below a power of two the neighbour is nearer. -/
def Interval.around (mantissa : Nat) (exponent : Int) : Interval :=
  let gap := if mantissa = leadingBit ∧ -1074 < exponent then 1 else 2
  let (unit, den) := scaleByTwo 1 1 (exponent - 2)
  { low := (4 * mantissa - gap) * unit
    mid := 4 * mantissa * unit
    high := (4 * mantissa + 2) * unit
    den
    closed := mantissa % 2 = 0 }

/-- The multiple of `10 ^ unit` in the interval that is nearest to its middle, if one of the two
multiples next to the middle is in it. Of two equally near the greater is taken. -/
def Interval.onGrid (i : Interval) (unit : Int) : Option Nat :=
  let (up, d) := scaleByTen 1 i.den (-unit)
  let below := i.mid * up / d
  let lowOk := if i.closed then i.low * up ≤ below * d else i.low * up < below * d
  let highOk :=
    if i.closed then (below + 1) * d ≤ i.high * up else (below + 1) * d < i.high * up
  if lowOk ∧ (¬ highOk ∨ 2 * (i.mid * up) < (2 * below + 1) * d) then some below
  else if highOk then some (below + 1)
  else none

/-- A number on the grid of `10 ^ unit`, without trailing zeros. -/
def Scientific.ofGrid (n : Nat) (unit : Int) : Scientific :=
  let all := Decimal.digits n
  { digits := (all.reverse.dropWhile (· == '0')).reverse, point := unit + all.length }

/-- Seventeen digits always suffice. -/
def shortest (mantissa : Nat) (exponent : Int) : Scientific :=
  let i := Interval.around mantissa exponent
  let k := magnitude i.mid i.den
  let grid (n : Nat) : Option Scientific :=
    let unit := k - (n + 1)
    (i.onGrid unit).map (Scientific.ofGrid · unit)
  ((List.range 17).findSome? grid).getD ⟨[], 0⟩

end TemplateEngine.Decimal

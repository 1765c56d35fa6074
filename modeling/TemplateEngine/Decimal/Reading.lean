import TemplateEngine.Decimal.Binary64
import TemplateEngine.Decimal.Integer

/-! Reading a floating-point number: decimal digits with at most one point and an optional power
of ten, or a word for infinity or not-a-number. The result is the nearest number there is. -/
namespace TemplateEngine.Decimal

/-- The float nearest to `digits * 10 ^ exponent`. Beyond the range of exponents that a
floating-point number can have the answer is known from the digit count alone. -/
def floatOfDecimal (negative : Bool) (ds : List Char) (exponent : Int) : Float :=
  let ds := ds.dropWhile (· == '0')
  let size := (ds.length : Int) + exponent
  if ds = [] ∨ size < -330 then nearestFloat negative 0 1
  else if 310 < size then infinity negative
  else if 0 ≤ exponent then nearestFloat negative (value ds * Nat.pow 10 exponent.toNat) 1
  else nearestFloat negative (value ds) (Nat.pow 10 (-exponent).toNat)

/-- A power of ten after the digits, or nothing. -/
def readExponent? : List Char → Option Int
  | [] => some 0
  | c :: rest => if c = 'e' ∨ c = 'E' then readInt? rest else none

def readMagnitude? (negative : Bool) (cs : List Char) : Option Float :=
  match cs.map Char.toLower with
  | ['i', 'n', 'f'] | ['i', 'n', 'f', 'i', 'n', 'i', 't', 'y'] =>
    some (infinity negative)
  | ['n', 'a', 'n'] => some notANumber
  | _ =>
    let whole := cs.takeWhile (·.isDigit)
    let (fraction, rest) :=
      match cs.dropWhile (·.isDigit) with
      | '.' :: rest => (rest.takeWhile (·.isDigit), rest.dropWhile (·.isDigit))
      | rest => ([], rest)
    if whole ++ fraction = [] then none
    else (readExponent? rest).map fun e =>
      floatOfDecimal negative (whole ++ fraction) (e - fraction.length)

def readFloat? : List Char → Option Float
  | '-' :: rest => readMagnitude? true rest
  | '+' :: rest => readMagnitude? false rest
  | cs => readMagnitude? false cs

end TemplateEngine.Decimal

/-! Floating-point numbers as exact quotients of whole numbers. -/
namespace TemplateEngine.Decimal

/-- A floating-point number taken apart; a finite one is `mantissa * 2 ^ exponent`. -/
inductive Parts where
  | nan
  | infinite (negative : Bool)
  | finite (negative : Bool) (mantissa : Nat) (exponent : Int)
  deriving DecidableEq, Repr

/-- The least mantissa of 53 bits. Its only bit is not stored, so it is also the number of fractions
that are. -/
def leadingBit : Nat := 0x10000000000000

def signBit : Nat := 0x8000000000000000

/-- The largest value of the field that holds the exponent; it marks numbers that are not finite. -/
def topField : Nat := 0x7ff

def Parts.ofFloat (x : Float) : Parts :=
  let bits : Nat := x.toBits.toNat
  let negative := bits.testBit 63
  let field : Nat := bits / leadingBit % (topField + 1)
  let fraction : Nat := bits % leadingBit
  if field = topField then if fraction = 0 then .infinite negative else .nan
  else if field = 0 then .finite negative fraction (-1074)
  else .finite negative (leadingBit + fraction) (field - 1075)

def notANumber : Float :=
  Float.ofBits 0x7ff8000000000000

/-- The number with the given sign whose other bits are `magnitude`. -/
def signed (negative : Bool) (magnitude : Nat) : Float :=
  Float.ofBits (UInt64.ofNat ((if negative then signBit else 0) + magnitude))

def infinity (negative : Bool) : Float :=
  signed negative (topField * leadingBit)

/-- A quotient of whole numbers to the nearest one, a half to the even neighbour. -/
def roundHalfEven (num den : Nat) : Nat :=
  let q := num / den
  let r := num % den
  if den < 2 * r ∨ (den = 2 * r ∧ q % 2 = 1) then q + 1 else q

/-- The numbers `num * 2 ^ e` and `den` in one quotient without a negative power. -/
def scaleByTwo (num den : Nat) (e : Int) : Nat × Nat :=
  if 0 ≤ e then (num * Nat.pow 2 e.toNat, den) else (num, den * Nat.pow 2 (-e).toNat)

/-- The floating-point number nearest to `num / den`, of two the one with the even mantissa. The
mantissa is rounded at the exponent that leaves it 53 bits, or at the least exponent there is;
a carry out of the mantissa adds to the exponent field next to it. -/
def nearestFloat (negative : Bool) (num den : Nat) : Float :=
  if num = 0 then signed negative 0
  else
    let low : Int := max ((num.log2 : Int) - den.log2 - 53) (-1074)
    let (n, d) := scaleByTwo num den (-low)
    let exponent := if n / d < 2 * leadingBit then low else low + 1
    let (n, d) := scaleByTwo num den (-exponent)
    let mantissa := roundHalfEven n d
    let magnitude :=
      if mantissa < leadingBit then mantissa
      else (exponent + 1075).toNat * leadingBit + (mantissa - leadingBit)
    signed negative (min magnitude (topField * leadingBit))

/-- The exact remainder of a division that is truncated toward zero; it has the sign of `x`. -/
def remainder (x y : Float) : Float :=
  match Parts.ofFloat x, Parts.ofFloat y with
  | .finite negative a p, .finite _ b q =>
    if b = 0 then notANumber
    else
      let e := min p q
      let rest := a * Nat.pow 2 (p - e).toNat % (b * Nat.pow 2 (q - e).toNat)
      let (n, d) := scaleByTwo rest 1 e
      nearestFloat negative n d
  | .finite .., .infinite _ => x
  | _, _ => notANumber

end TemplateEngine.Decimal

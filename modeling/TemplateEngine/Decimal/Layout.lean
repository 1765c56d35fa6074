import TemplateEngine.Decimal.Shortest

/-! How a floating-point number is laid out as text. -/
namespace TemplateEngine.Decimal

/-- The choices of a format: what follows a whole number, and which numbers have an exponent, as
bounds on the power of ten above the first digit. -/
structure Layout where
  afterWhole : List Char
  exponentFrom : Option Int
  exponentUpTo : Option Int

def Layout.usesExponent (l : Layout) (point : Int) : Bool :=
  l.exponentFrom.any (· ≤ point) || l.exponentUpTo.any (point ≤ ·)

def Layout.positional (l : Layout) (s : Scientific) : List Char :=
  if s.point ≤ 0 then
    ['0', '.'] ++ List.replicate (-s.point).toNat '0' ++ s.digits
  else
    let whole := s.point.toNat
    if s.digits.length ≤ whole then
      s.digits ++ List.replicate (whole - s.digits.length) '0' ++ l.afterWhole
    else
      s.digits.take whole ++ '.' :: s.digits.drop whole

/-- One digit before the point and a power of ten. -/
def scientificText (s : Scientific) : List Char :=
  match s.digits with
  | [] => ['0']
  | [d] => d :: 'e' :: ofInt (s.point - 1)
  | d :: rest => d :: '.' :: rest ++ 'e' :: ofInt (s.point - 1)

/-- The text of `x`. Zero keeps its sign and not-a-number has none. -/
def Layout.write (l : Layout) (x : Float) : List Char :=
  let signed (negative : Bool) (body : List Char) := if negative then '-' :: body else body
  match Parts.ofFloat x with
  | .nan => ['N', 'a', 'N']
  | .infinite negative => signed negative ['i', 'n', 'f']
  | .finite negative 0 _ => signed negative ('0' :: l.afterWhole)
  | .finite negative mantissa exponent =>
    let s := shortest mantissa exponent
    signed negative (if l.usesExponent s.point then scientificText s else l.positional s)

/-- Zeros are written in blocks, of which all but the last are full. -/
def zeroBlocks (n : Nat) : List (List Char) :=
  if 64 < n then List.replicate 64 '0' :: zeroBlocks (n - 64)
  else if n = 0 then []
  else [List.replicate n '0']

def Scientific.parts (s : Scientific) : List (List Char) :=
  if s.point ≤ 0 then
    ['0', '.'] :: (zeroBlocks (-s.point).toNat ++ [s.digits])
  else
    let whole := s.point.toNat
    if s.digits.length ≤ whole then s.digits :: zeroBlocks (whole - s.digits.length)
    else [s.digits.take whole, ['.'], s.digits.drop whole]

/-- The parts of the text of `x`, without an exponent, in which it is written. -/
def parts (x : Float) : List (List Char) :=
  let signed (negative : Bool) (body : List (List Char)) := if negative then ['-'] :: body else body
  match Parts.ofFloat x with
  | .nan => [['N', 'a', 'N']]
  | .infinite negative => signed negative [['i', 'n', 'f']]
  | .finite negative 0 _ => signed negative [['0']]
  | .finite negative mantissa exponent => signed negative (shortest mantissa exponent).parts

theorem flatten_zeroBlocks (n : Nat) : (zeroBlocks n).flatten = List.replicate n '0' := by
  fun_induction zeroBlocks n with
  | case1 n hlt ih =>
    rw [List.flatten_cons, ih, List.replicate_append_replicate, Nat.add_sub_cancel' (by omega)]
  | case2 => rfl
  | case3 n => simp

theorem Scientific.flatten_parts (s : Scientific) (l : Layout) (h : l.afterWhole = []) :
    s.parts.flatten = l.positional s := by
  unfold Scientific.parts Layout.positional
  split
  · simp [flatten_zeroBlocks]
  · dsimp only
    split
    · simp [flatten_zeroBlocks, h]
    · simp

theorem flatten_parts (x : Float) (l : Layout) (hwhole : l.afterWhole = [])
    (hexponent : ∀ point, l.usesExponent point = false) : (parts x).flatten = l.write x := by
  have hsigned (negative : Bool) (body : List (List Char)) :
      (if negative then ['-'] :: body else body).flatten =
        if negative then '-' :: body.flatten else body.flatten := by
    cases negative <;> rfl
  unfold parts Layout.write
  split
  · rfl
  · dsimp only
    rw [hsigned]
    rfl
  · dsimp only
    rw [hsigned, hwhole]
    rfl
  · dsimp only
    rw [hsigned, hexponent, Scientific.flatten_parts _ l hwhole]
    rfl

end TemplateEngine.Decimal

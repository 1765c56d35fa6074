import TemplateEngine.Decimal.Binary64
import TemplateEngine.Run.Failure

/-! Operators on values. Whole numbers are exact or refused; a whole and a floating-point number are
taken as two floating-point numbers. -/
namespace TemplateEngine.Operators

open TemplateEngine.Expr (UnaryOp BinaryOp)

def exact (i : Int) : Except Failure Value :=
  match Decimal.toInt64? i with
  | some n => .ok (.int n)
  | none => .error .overflow

def mismatch (op : BinaryOp) (a b : Value) : Except Failure Value :=
  .error (.binaryMismatch op a.typeName b.typeName)

def asFloat? : Value → Option Float
  | .int n => some n.toFloat
  | .float x => some x
  | _ => none

def unary : UnaryOp → Value → Except Failure Value
  | .not, v => .ok (.bool !v.isTruthy)
  | .neg, .int n => exact (-n.toInt)
  | .neg, .float x => .ok (.float (-x))
  | .neg, v => .error (.unaryMismatch .neg v.typeName)

/-- The order of two floating-point numbers; not-a-number has none. -/
def compareFloats (x y : Float) : Option Ordering :=
  if x < y then some .lt else if x == y then some .eq else if y < x then some .gt else none

/-- The order of two values of one ordered type, `false` before `true`. -/
def compareValues : Value → Value → Option Ordering
  | .int a, .int b => some (compare a.toInt b.toInt)
  | .str a, .str b => some (compare a b)
  | .bool a, .bool b => some (compare a.toNat b.toNat)
  | a, b =>
    match asFloat? a, asFloat? b with
    | some x, some y => compareFloats x y
    | _, _ => none

def holds : BinaryOp → Ordering → Bool
  | .lt, o => o == .lt
  | .le, o => o != .gt
  | .gt, o => o == .gt
  | _, o => o != .lt

def compared (op : BinaryOp) (a b : Value) : Except Failure Value :=
  match compareValues a b with
  | some o => .ok (.bool (holds op o))
  | none => mismatch op a b

/-- A sum, or a concatenation if either side is a string or both are lists. -/
def plus : Value → Value → Except Failure Value
  | .int a, .int b => exact (a.toInt + b.toInt)
  | .str a, b => .ok (.str (a ++ b.render))
  | a, .str b => .ok (.str (a.render ++ b))
  | .list a, .list b => .ok (.list (a ++ b))
  | a, b =>
    match asFloat? a, asFloat? b with
    | some x, some y => .ok (.float (x + y))
    | _, _ => mismatch .add a b

/-- Division is truncated toward zero, and a remainder has the sign of the dividend. A remainder is
refused as well when the quotient does not fit. -/
def wholeArithmetic (op : BinaryOp) (a b : Int) : Except Failure Value :=
  match op with
  | .sub => exact (a - b)
  | .mul => exact (a * b)
  | .div => if b = 0 then .error .divisionByZero else exact (a.tdiv b)
  | _ =>
    if b = 0 then .error .divisionByZero
    else (exact (a.tdiv b)).bind fun _ => exact (a.tmod b)

def floatArithmetic (op : BinaryOp) (x y : Float) : Float :=
  match op with
  | .sub => x - y
  | .mul => x * y
  | .div => x / y
  | _ => Decimal.remainder x y

def arithmetic (op : BinaryOp) : Value → Value → Except Failure Value
  | .int a, .int b => wholeArithmetic op a.toInt b.toInt
  | a, b =>
    match asFloat? a, asFloat? b with
    | some x, some y => .ok (.float (floatArithmetic op x y))
    | _, _ => mismatch op a b

def binary (op : BinaryOp) (a b : Value) : Except Failure Value :=
  match op with
  | .eq => .ok (.bool (a.equal b))
  | .ne => .ok (.bool !(a.equal b))
  | .lt | .le | .gt | .ge => compared op a b
  | .add => plus a b
  | .sub | .mul | .div | .mod => arithmetic op a b
  | .and => .ok (.bool (a.isTruthy && b.isTruthy))
  | .or => .ok (.bool (a.isTruthy || b.isTruthy))

end TemplateEngine.Operators

import TemplateEngine.Expr.Syntax
import TemplateEngine.Placeholder
import TemplateEngine.Value.Text

/-! Why a value could not be had. Such a failure never ends a run; it leaves a placeholder in the
output. -/
namespace TemplateEngine

inductive Failure where
  | noField (field typeName : String)
  | noKey (key : String)
  | indexOutOfRange (index : Int64) (length : Nat)
  | noElement (index : Int64) (typeName : String)
  | notIndexable (typeName : String)
  | noMethod (method typeName : String)
  | wrongArgCount (method : String) (expected found : Nat)
  | notAString (method found : String)
  | methodFailed (method reason : String)
  | binaryMismatch (op : Expr.BinaryOp) (left right : String)
  | unaryMismatch (op : Expr.UnaryOp) (operand : String)
  | noValue
  | divisionByZero
  | overflow
  | notAContainer (typeName : String)
  | notATemplate (typeName : String)
  | unknownTemplate
  | registryDropped
  | unknownParameter (template param : String)
  | operationTarget (expected found : String)
  | operationFailed (reason : String)
  deriving DecidableEq, Repr

def Failure.message : Failure → String
  | .noField field typeName => "no field `" ++ field ++ "` on " ++ typeName
  | .noKey key => "no key " ++ Text.quote key ++ " in map"
  | .indexOutOfRange index length =>
    "index " ++ intText index ++ " out of range for length " ++ toString length
  | .noElement index typeName => "no element at index " ++ intText index ++ " in " ++ typeName
  | .notIndexable typeName => "cannot index into " ++ typeName
  | .noMethod method typeName => "no method `" ++ method ++ "` on " ++ typeName
  | .wrongArgCount method expected found =>
    "`" ++ method ++ "` takes " ++ toString expected ++ " argument(s), got " ++ toString found
  | .notAString method found => "`" ++ method ++ "` expects a string, got " ++ found
  | .methodFailed method reason => "`" ++ method ++ "` failed: " ++ reason
  | .binaryMismatch op left right =>
    "cannot apply `" ++ op.symbol ++ "` to " ++ left ++ " and " ++ right
  | .unaryMismatch op operand => "cannot apply `" ++ op.symbol ++ "` to " ++ operand
  | .noValue => "no value"
  | .divisionByZero => "division by zero"
  | .overflow => "integer overflow"
  | .notAContainer typeName => "cannot iterate over " ++ typeName
  | .notATemplate typeName => "expected a template, found " ++ typeName
  | .unknownTemplate => "no template with this name"
  | .registryDropped => "template registry is no longer alive"
  | .unknownParameter template param =>
    "template `" ++ template ++ "` has no parameter `" ++ param ++ "`"
  | .operationTarget expected found =>
    "operation target must be " ++ expected ++ ", found " ++ found
  | .operationFailed reason => "operation failed: " ++ reason

/-- What was being resolved, as its source says it, and why that failed. -/
structure DataError where
  subject : String
  failure : Failure
  deriving DecidableEq, Repr

def DataError.placeholder (e : DataError) : String :=
  TemplateEngine.placeholder e.subject e.failure.message

end TemplateEngine

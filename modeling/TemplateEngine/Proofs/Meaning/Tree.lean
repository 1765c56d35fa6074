import TemplateEngine.Compile.Lowering
import TemplateEngine.Run.Resolve

/-! What an operand means, said of its tree. Names are looked up where they stand, and the parts of
a tree are evaluated where they are. -/
namespace TemplateEngine

/-- What the head of a path stands for: a name is a slot if there is one, else a constant, and
`this` is the operation target. An unknown name stands for nothing. -/
def Names.value? (names : Names) (s : Scope) : Expr.Head → Option Value
  | .this => some s.target
  | .literal v => some v
  | .name name =>
    match names.slots.lookup? name with
    | some slot => some (s.slot slot)
    | none => names.constants.lookup name

/-- How the head of a path is named in messages: constants are by their value. -/
def Names.text? (names : Names) : Expr.Head → Option String
  | .this => some "this"
  | .literal v => some (literalText v)
  | .name name =>
    if (names.slots.lookup? name).isSome then some name
    else (names.constants.lookup name).map literalText

/-- The same values of slots and the same target, with one host. -/
structure Scope.Alike (s s' : Scope) : Prop where
  host : s'.host = s.host
  values : s'.values = s.values
  target : s'.target = s.target

namespace Expr

section Text

variable (names : Names)

mutual

/-- A tree as it is written in messages. What starts from an unknown name counts as null. -/
def Ast.text : Ast → String
  | .const v => literalText v
  | .path head steps =>
    match names.text? head with
    | some root => root ++ stepsText steps
    | none => literalText .null
  | .unary op operand => op.symbol ++ operand.text
  | .binary op left right => left.text ++ " " ++ op.symbol ++ " " ++ right.text

def Step.text : Step → String
  | .field name => "." ++ name
  | .index i => "[" ++ intText i ++ "]"
  | .key k => "[" ++ Text.quote k ++ "]"
  | .call name args => "." ++ name ++ "(" ++ ", ".intercalate (argumentTexts args) ++ ")"

def stepsText : List Step → String
  | [] => ""
  | step :: rest => step.text ++ stepsText rest

def argumentTexts : List Ast → List String
  | [] => []
  | arg :: rest => arg.text :: argumentTexts rest

end

end Text

section Value

variable (names : Names) (s : Scope)

mutual

/-- The value of a tree. The failure of an operator is one of the whole tree, and one on the way of
a path is one of the whole path. -/
def Ast.value : Ast → Except DataError Value
  | .const v => .ok v
  | .path head steps =>
    match names.value? s head with
    | none => .ok .null
    | some root =>
      match stepsValue root steps with
      | .ok v => .ok v
      | .error failure => .error ⟨(Ast.path head steps).text names, failure⟩
  | .unary op operand => do
    Scope.blame ((Ast.unary op operand).text names) (Operators.unary op (← operand.value))
  | .binary .and left right => do
    if (← left.value).isTruthy then return .bool (← right.value).isTruthy else return .bool false
  | .binary .or left right => do
    if (← left.value).isTruthy then return .bool true else return .bool (← right.value).isTruthy
  | .binary op left right => do
    let a ← left.value
    let b ← right.value
    Scope.blame ((Ast.binary op left right).text names) (Operators.binary op a b)

/-- One step from a value. The arguments of a method are evaluated from left to right before the
call. -/
def Step.value (v : Value) : Step → Except Failure Value
  | .field name => fieldOf s.host v name
  | .index i => elementAt s.host v i
  | .key k => entryAt s.host v k
  | .call name args =>
    match argumentValues args with
    | .ok args => Methods.call s.host v name args
    | .error e => .error e.failure

def stepsValue (v : Value) : List Step → Except Failure Value
  | [] => .ok v
  | step :: rest => do stepsValue (← step.value v) rest

def argumentValues : List Ast → Except DataError (List Value)
  | [] => .ok []
  | arg :: rest => do
    let v ← arg.value
    return v :: (← argumentValues rest)

end

end Value

section Alike

variable {names : Names} {s s' : Scope}

theorem value?_of_alike (h : s.Alike s') (head : Head) :
    names.value? s' head = names.value? s head := by
  cases head with
  | name name => simp only [Names.value?, Scope.slot, h.values]
  | this => simp only [Names.value?, h.target]
  | literal v => rfl

mutual

/-- A tree comes to the same wherever its names do. -/
theorem Ast.value_of_alike (h : s.Alike s') (e : Ast) : e.value names s' = e.value names s := by
  match e with
  | .const v => rfl
  | .path head steps =>
    rw [Ast.value, Ast.value, value?_of_alike h]
    cases names.value? s head with
    | none => rfl
    | some root => simp only [stepsValue_of_alike h steps root]
  | .unary op operand => rw [Ast.value, Ast.value, Ast.value_of_alike h operand]
  | .binary op left right =>
    have hleft := Ast.value_of_alike h left
    have hright := Ast.value_of_alike h right
    cases op <;> simp only [Ast.value, hleft, hright]

theorem Step.value_of_alike (h : s.Alike s') (step : Step) (v : Value) :
    step.value names s' v = step.value names s v := by
  match step with
  | .field name => simp only [Step.value, h.host]
  | .index i => simp only [Step.value, h.host]
  | .key k => simp only [Step.value, h.host]
  | .call name args => simp only [Step.value, argumentValues_of_alike h args, h.host]

theorem stepsValue_of_alike (h : s.Alike s') (steps : List Step) (v : Value) :
    stepsValue names s' v steps = stepsValue names s v steps := by
  match steps with
  | [] => rfl
  | step :: rest =>
    rw [stepsValue, stepsValue, Step.value_of_alike h step v]
    exact bind_congr fun w => stepsValue_of_alike h rest w

theorem argumentValues_of_alike (h : s.Alike s') (args : List Ast) :
    argumentValues names s' args = argumentValues names s args := by
  match args with
  | [] => rfl
  | arg :: rest =>
    rw [argumentValues, argumentValues, Ast.value_of_alike h arg, argumentValues_of_alike h rest]

end

end Alike

section Unknown

variable (names : Names) (operand : List Char)

mutual

/-- The unknown names of a tree, from left to right, as they are reported. Behind an unknown name
nothing is looked at. -/
def Ast.unknown : Ast → List String
  | .const _ => []
  | .path head steps =>
    match names.root? head, head with
    | some _, _ => stepsUnknown steps
    | none, .name name => [unknownText operand name]
    | none, _ => []
  | .unary _ operand => operand.unknown
  | .binary _ left right => left.unknown ++ right.unknown

def Step.unknown : Step → List String
  | .call _ args => argumentsUnknown args
  | .field _ | .index _ | .key _ => []

def stepsUnknown : List Step → List String
  | [] => []
  | step :: rest => step.unknown ++ stepsUnknown rest

def argumentsUnknown : List Ast → List String
  | [] => []
  | arg :: rest => arg.unknown ++ argumentsUnknown rest

end

end Unknown

end Expr

end TemplateEngine

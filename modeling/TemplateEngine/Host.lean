import TemplateEngine.Value.Basic

/-! What a host program offers to templates: objects that can be looked into, and operations. -/
namespace TemplateEngine

/-- How the objects of a host program answer. The engine never looks inside an object; it only asks
for a field, an element, a method call or the sequence of elements. -/
structure Host where
  field : ObjectRef → String → Option Value
  index : ObjectRef → Int64 → Option Value
  call : ObjectRef → String → List Value → Except String Value
  elements : ObjectRef → Option (List Value)

namespace Host

def noMethod (o : ObjectRef) (method : String) : String :=
  "no method `" ++ method ++ "` on " ++ o.typeName

/-- Objects that have nothing to show. -/
def bare : Host where
  field _ _ := none
  index _ _ := none
  call o method _ := .error (noMethod o method)
  elements _ := none

end Host

inductive Arity where
  | nullary
  | unary
  deriving DecidableEq, Repr

/-- Something a host program can do for a template. It is given the operation target and, if it is
unary, an argument. -/
structure Operation where
  name : String
  arity : Arity
  run : Value → Option Value → Except String Value

structure OperationTable where
  typeName : String
  operations : List Operation := []

namespace OperationTable

/-- Adds an operation; one of the same name is replaced. -/
def register (t : OperationTable) (op : Operation) : OperationTable :=
  { t with operations := op :: t.operations.filter (·.name != op.name) }

def lookup? (t : OperationTable) (name : String) : Option Operation :=
  t.operations.find? (·.name == name)

end OperationTable

end TemplateEngine

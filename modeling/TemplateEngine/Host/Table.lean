import TemplateEngine.Host

/-! A host whose objects are given by data alone. -/
namespace TemplateEngine

/-- How a method of such an object answers: always with the same value, always with the same
failure, or with the list of its arguments. -/
inductive MethodReply where
  | value (v : Value)
  | failure (reason : String)
  | arguments

def MethodReply.answer (args : List Value) : MethodReply → Except String Value
  | .value v => .ok v
  | .failure reason => .error reason
  | .arguments => .ok (.list args)

/-- Everything that an object shows. One without `elements` cannot be iterated over. -/
structure ObjectData where
  typeName : String
  fields : List (String × Value) := []
  index : List Value := []
  methods : List (String × MethodReply) := []
  elements : Option (List Value) := none
  text : Option String := none

/-- An object that does not say how it is rendered shows its type. -/
def ObjectData.ref (d : ObjectData) (id : Nat) : ObjectRef where
  id
  typeName := d.typeName
  text := d.text.getD ("<" ++ d.typeName ++ ">")
  listed := "Host " ++ d.typeName

namespace Host

/-- The host that has the given objects. Each is identified by its place. -/
def ofObjects (objects : Array ObjectData) : Host where
  field o name := objects[o.id]?.bind (·.fields.lookup name)
  index o i := do
    let d ← objects[o.id]?
    if i.toInt < 0 then none else d.index[i.toInt.toNat]?
  call o method args :=
    match objects[o.id]?.bind (·.methods.lookup method) with
    | some reply => reply.answer args
    | none => .error (noMethod o method)
  elements o := objects[o.id]?.bind (·.elements)

theorem ofObjects_empty : ofObjects #[] = bare := rfl

end Host

end TemplateEngine

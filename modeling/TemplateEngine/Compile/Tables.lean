import TemplateEngine.Compile.Lowering
import TemplateEngine.Compile.Options
import TemplateEngine.Marker.Basic
import TemplateEngine.Placeholder
import TemplateEngine.Program.Instr
import TemplateEngine.Text.Nesting

/-! What a marker says on its own, whatever block it stands in: the operands in it, the names that
it declares and the actions that it asks for. -/
namespace TemplateEngine

/-- What the markers so far have laid down for the whole template. -/
structure Tables where
  slots : SlotMap := .empty
  arena : Arena := {}
  callSites : Nat := 0

def unknownNote (name : String) : String :=
  placeholder name "unknown variable"

def notes (unknown : List String) : List Action :=
  unknown.map fun name => .literal (unknownNote name)

namespace Tables

def declareParams (t : Tables) : List String → Except Fault Tables
  | [] => .ok t
  | param :: rest =>
    let name := Text.trim param.toList
    let text := String.ofList name
    if !Text.isName name then .error (.invalidName text)
    else if (t.slots.lookup? text).isSome then .error (.duplicateParameter text)
    else declareParams { t with slots := (t.slots.declare text).1 } rest

/-- An operand, the unknown names in it, and the tables with its nodes. -/
def operand (o : CompileOptions) (t : Tables) (text : List Char) :
    Except Fault (Operand × List String × Tables) := do
  let (source, after) ← Lowering.ofText ⟨t.slots, o.constants⟩ t.arena text
  return (source, after.unknown, { t with arena := after.arena })

/-- An operand of a block header. With an unknown name in it the whole operand is null. -/
def headerOperand (o : CompileOptions) (t : Tables) (text : List Char) :
    Except Fault (Operand × List String × Tables) := do
  let (source, unknown, t) ← t.operand o text
  return (if unknown.isEmpty then source else .constant .null, unknown, t)

def declare (t : Tables) (name : List Char) : Except Fault (SlotId × Tables) :=
  let name := Text.trim name
  if Text.isName name then
    let (slots, slot) := t.slots.declare (String.ofList name)
    .ok (slot, { t with slots })
  else .error (.invalidName (String.ofList name))

def write (o : CompileOptions) (t : Tables) (path : List Char) :
    Except Fault (List Action × Tables) := do
  let (source, unknown, t) ← t.operand o path
  return (if unknown.isEmpty then [.variable source] else notes unknown, t)

/-- The variable of a loop has a companion that looks one element ahead. -/
def lookahead (var : List Char) : List Char :=
  Text.trim var ++ "_next".toList

/-- The header of a loop and the unknown names in its container. -/
def loopHeader (o : CompileOptions) (t : Tables) (var container : List Char) :
    Except Fault (Loop × List String × Tables) := do
  let (container, unknown, t) ← t.headerOperand o container
  let (entry, t) ← t.declare var
  let (next, t) ← t.declare (lookahead var)
  return (⟨container, entry, next⟩, unknown, t)

/-- The value is read before the target is declared, so it sees the target only if that was known
before. -/
def set (o : CompileOptions) (t : Tables) (var value : List Char) :
    Except Fault (List Action × Tables) := do
  let (value, unknown, t) ← t.operand o value
  let (target, t) ← t.declare var
  return (notes unknown ++ [.set target value], t)

/-- What a call of `name` invokes: the template in that slot, else a known template, else one that
is looked up by name when the call is made. The slots of a known one come with it. -/
def callee (o : CompileOptions) (t : Tables) (name : String) :
    Except Fault (Callee × Option Template) :=
  match t.slots.lookup? name, o.known.resolve? name with
  | some slot, _ => .ok (.held slot, none)
  | none, some u => .ok (.known u.ref, some u)
  | none, none =>
    if o.forward.contains name then .ok (.named name, none)
    else .error (.unknownCallTarget name)

/-- The slot of an argument, which a known callee has to have. -/
def argumentSlot (known : Option Template) (name : String) : Except Fault (Option SlotId) :=
  match known with
  | none => .ok none
  | some u =>
    match u.slots.lookup? name with
    | some slot => .ok (some slot)
    | none => .error (.unknownCallParameter u.name name)

def argument (o : CompileOptions) (t : Tables) (known : Option Template) (text : List Char) :
    Except Fault (Argument × List String × Tables) :=
  match Text.splitOnce '=' text with
  | none => .error (.invalidExpression (String.ofList (Text.trim text)) .missingBinding)
  | some (param, value) => do
    let param := Text.trim param
    let name := String.ofList param
    if !Text.isName param then throw (.invalidName name)
    let slot ← argumentSlot known name
    let (value, unknown, t) ← t.operand o value
    return (⟨name, slot, value⟩, unknown, t)

def arguments (o : CompileOptions) (t : Tables) (known : Option Template) :
    List (List Char) → Except Fault (List Argument × List String × Tables)
  | [] => .ok ([], [], t)
  | text :: rest => do
    let (arg, unknown, t) ← t.argument o known text
    let (args, more, t) ← t.arguments o known rest
    return (arg :: args, unknown ++ more, t)

/-- The arguments of a call stand between commas at top level; blank ones are passed over. -/
def argumentTexts (args : Option (List Char)) : List (List Char) :=
  match args with
  | none => []
  | some text => (Text.splitAtTop ',' text).filter (!Text.isAllBlank ·)

def call (o : CompileOptions) (t : Tables) (name : List Char) (args : Option (List Char)) :
    Except Fault (List Action × Tables) := do
  let (callee, known) ← t.callee o (String.ofList (Text.trim name))
  let (args, unknown, t) ← t.arguments o known (argumentTexts args)
  return (notes unknown ++ [.call ⟨callee, args, t.callSites⟩],
    { t with callSites := t.callSites + 1 })

def exec (o : CompileOptions) (t : Tables) (op : List Char) (arg : Option (List Char)) :
    Except Fault (List Action × Tables) := do
  let name := String.ofList (Text.trim op)
  let some table := o.operations | throw .noOperationProvider
  let some op := table.lookup? name | throw (.unknownOperation name)
  match op.arity, arg.filter (!Text.isAllBlank ·) with
  | .unary, none => throw (.operationArity name .unary)
  | .nullary, some _ => throw (.operationArity name .nullary)
  | .nullary, none => return ([.exec op none], t)
  | .unary, some text => do
    let (arg, unknown, t) ← t.operand o text
    return (notes unknown ++ [.exec op (some arg)], t)

def debug (o : CompileOptions) (t : Tables) (value compare : Option (List Char)) :
    Except Fault (List Action × Tables) := do
  let compare := compare.map fun c => String.ofList (Text.trim c)
  match value.filter (!Text.isAllBlank ·) with
  | none => return ([.debug none compare], t)
  | some text =>
    let (value, unknown, t) ← t.operand o text
    return (notes unknown ++ [.debug (some value) compare], t)

end Tables

end TemplateEngine

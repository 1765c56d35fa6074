import TemplateEngine.Program.Template
import TemplateEngine.Run.Methods
import TemplateEngine.Run.Operators

/-! The value of an operand. A failure names what was being resolved, in words rebuilt from the
compiled form. -/
namespace TemplateEngine

/-- What an operand can see: the names and values of the slots, the operation target, and the
objects of the host. -/
structure Scope where
  host : Host
  slots : SlotMap
  arena : Arena
  values : List Value
  target : Value

def fieldOf (host : Host) (v : Value) (name : String) : Except Failure Value :=
  let found :=
    match v with
    | .map entries => entries.lookup name
    | .object o => host.field o name
    | _ => none
  match found with
  | some w => .ok w
  | none => .error (.noField name v.typeName)

/-- The place that an index means in a list; a negative one counts from the end. -/
def indexPlace? (length : Nat) (i : Int) : Option Nat :=
  if 0 ≤ i then some i.toNat
  else if i.natAbs ≤ length then some (length - i.natAbs)
  else none

def elementAt (host : Host) (v : Value) (i : Int64) : Except Failure Value :=
  match v with
  | .list items =>
    match (indexPlace? items.length i.toInt).bind (items[·]?) with
    | some w => .ok w
    | none => .error (.indexOutOfRange i items.length)
  | .object o =>
    match host.index o i with
    | some w => .ok w
    | none => .error (.noElement i o.typeName)
  | _ => .error (.notIndexable v.typeName)

def entryAt (host : Host) (v : Value) (key : String) : Except Failure Value :=
  match v with
  | .map entries =>
    match entries.lookup key with
    | some w => .ok w
    | none => .error (.noKey key)
  | .object _ => fieldOf host v key
  | _ => .error (.notIndexable v.typeName)

def literalText : Value → String
  | .str s => Text.quote s
  | .null => "null"
  | v => v.render

namespace Scope

def slot (s : Scope) (id : SlotId) : Value :=
  s.values[id]?.getD .null

def slotName (s : Scope) (id : SlotId) : String :=
  (s.slots.nameOf? id).getD "?"

def rootText (s : Scope) : Root → String
  | .slot id => s.slotName id
  | .constant v => literalText v
  | .target => "this"

def pathText (s : Scope) (exprText : ExprId → String) (p : Path) : String :=
  p.text exprText (s.rootText p.root)

/-- The text of a node, from the texts of the nodes that it refers to. Operators stand between
blanks and without parentheses. -/
def textOf (s : Scope) (exprText : ExprId → String) : Node → String
  | .const v => literalText v
  | .path p => s.pathText exprText p
  | .unary op operand => op.symbol ++ exprText operand
  | .binary op left right => exprText left ++ " " ++ op.symbol ++ " " ++ exprText right

def nodeText (s : Scope) : (count : Nat) → List Node → ExprId → String
  | count + 1, n :: older, id =>
    if id = count then s.textOf (s.nodeText count older) n else s.nodeText count older id
  | _, _, _ => ""

def exprText (s : Scope) (id : ExprId) : String :=
  s.nodeText s.arena.size s.arena.nodes id

def operandText (s : Scope) : Operand → String
  | .constant v => literalText v
  | .slot id => s.slotName id
  | .path p => s.pathText s.exprText p
  | .expr id => s.exprText id

def root (s : Scope) : Root → Value
  | .slot id => s.slot id
  | .constant v => v
  | .target => s.target

/-- One access. The arguments of a method are evaluated from left to right before the call. -/
def access (s : Scope) (eval : ExprId → Except DataError Value) (v : Value) :
    Access → Except Failure Value
  | .field name => fieldOf s.host v name
  | .index i => elementAt s.host v i
  | .key k => entryAt s.host v k
  | .call name args =>
    match args.mapM eval with
    | .ok args => Methods.call s.host v name args
    | .error e => .error e.failure

/-- The value at the end of a path. A failure on the way is one of the whole path. -/
def path (s : Scope) (eval : ExprId → Except DataError Value) (exprText : ExprId → String)
    (p : Path) : Except DataError Value :=
  match p.accesses.foldlM (s.access eval) (s.root p.root) with
  | .ok v => .ok v
  | .error failure => .error ⟨s.pathText exprText p, failure⟩

/-- The failure of an operator is one of the whole expression, whose text is given. -/
def blame (text : String) : Except Failure Value → Except DataError Value
  | .ok v => .ok v
  | .error failure => .error ⟨text, failure⟩

/-- The value of a node, from those of the nodes that it refers to. The right side of `&&` and `||`
is evaluated only if the left side does not decide. -/
def valueOf (s : Scope) (eval : ExprId → Except DataError Value) (exprText : ExprId → String)
    (n : Node) : Except DataError Value :=
  let blame := blame (s.textOf exprText n)
  match n with
  | .const v => .ok v
  | .path p => s.path eval exprText p
  | .unary op operand => do blame (Operators.unary op (← eval operand))
  | .binary .and left right => do
    if (← eval left).isTruthy then return .bool (← eval right).isTruthy else return .bool false
  | .binary .or left right => do
    if (← eval left).isTruthy then return .bool true else return .bool (← eval right).isTruthy
  | .binary op left right => do
    let a ← eval left
    let b ← eval right
    blame (Operators.binary op a b)

def node (s : Scope) : (count : Nat) → List Node → ExprId → Except DataError Value
  | count + 1, n :: older, id =>
    if id = count then s.valueOf (s.node count older) (s.nodeText count older) n
    else s.node count older id
  | _, _, _ => .ok .null

def expr (s : Scope) (id : ExprId) : Except DataError Value :=
  s.node s.arena.size s.arena.nodes id

def resolve (s : Scope) : Operand → Except DataError Value
  | .constant v => .ok v
  | .slot id => .ok (s.slot id)
  | .path p => s.path s.expr s.exprText p
  | .expr id => s.expr id

end Scope

end TemplateEngine

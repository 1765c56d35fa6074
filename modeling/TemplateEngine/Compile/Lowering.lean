import TemplateEngine.Expr.Parse
import TemplateEngine.Malformed
import TemplateEngine.Program.Operand
import TemplateEngine.Text.Split

/-! Giving the names of an operand their meaning. A name is a slot if there is one, else a constant;
any other name is unknown, and what starts from it counts as null. -/
namespace TemplateEngine

structure Names where
  slots : SlotMap
  constants : List (String × Value)

def Names.root? (names : Names) : Expr.Head → Option Root
  | .this => some .target
  | .literal v => some (.constant v)
  | .name s =>
    match names.slots.lookup? s with
    | some slot => some (.slot slot)
    | none => (names.constants.lookup s).map .constant

/-- How an unknown name is reported: by the whole operand if it is no more than a path that starts
with the name, else by itself. -/
def unknownText (operand : List Char) (name : String) : String :=
  match Text.stripPrefix? name.toList operand with
  | some rest =>
    if rest.all fun c => Text.isAlphanumeric c || "_.[]\x22\x27".toList.contains c then
      String.ofList operand
    else name
  | none => name

/-- The arena so far, and the unknown names of the operand so far. -/
structure Lowering where
  arena : Arena
  unknown : List String := []

namespace Lowering

def alloc (n : Node) : StateM Lowering ExprId :=
  modifyGet fun s => let (arena, id) := s.arena.alloc n; (id, { s with arena })

def reportUnknown (name : String) : StateM Lowering Unit :=
  modify fun s => { s with unknown := s.unknown ++ [name] }

/-- The root of a path; an unknown one is reported. -/
def root (names : Names) (operand : List Char) (head : Expr.Head) :
    StateM Lowering (Option Root) :=
  match names.root? head, head with
  | some r, _ => pure (some r)
  | none, .name s => do
    reportUnknown (unknownText operand s)
    pure none
  | none, _ => pure none

mutual

/-- Allocates the nodes of an expression, each after those it refers to. -/
def expr (names : Names) (operand : List Char) : Expr.Ast → StateM Lowering ExprId
  | .const v => alloc (.const v)
  | .path head steps => do
    match ← root names operand head with
    | some r => alloc (.path ⟨r, ← accesses names operand steps⟩)
    | none => alloc (.const .null)
  | .unary op inner => do
    let inner ← expr names operand inner
    alloc (.unary op inner)
  | .binary op left right => do
    let left ← expr names operand left
    let right ← expr names operand right
    alloc (.binary op left right)

def access (names : Names) (operand : List Char) : Expr.Step → StateM Lowering Access
  | .field name => pure (.field name)
  | .index i => pure (.index i)
  | .key k => pure (.key k)
  | .call name args => do return .call name (← arguments names operand args)

def accesses (names : Names) (operand : List Char) :
    List Expr.Step → StateM Lowering (List Access)
  | [] => pure []
  | s :: rest => do
    let a ← access names operand s
    return a :: (← accesses names operand rest)

def arguments (names : Names) (operand : List Char) :
    List Expr.Ast → StateM Lowering (List ExprId)
  | [] => pure []
  | e :: rest => do
    let id ← expr names operand e
    return id :: (← arguments names operand rest)

end

/-- The simplest operand for a tree. Only operators need a place in the arena. -/
def operandOf (names : Names) (operand : List Char) : Expr.Ast → StateM Lowering Operand
  | .const v => pure (.constant v)
  | .path head steps => do
    match ← root names operand head with
    | none => pure (.constant .null)
    | some r =>
      match r, ← accesses names operand steps with
      | .slot s, [] => pure (.slot s)
      | .constant v, [] => pure (.constant v)
      | r, accesses => pure (.path ⟨r, accesses⟩)
  | ast => do return .expr (← expr names operand ast)

/-- The operand with the given text, the unknown names in it in order, and the arena with its
nodes. -/
def ofText (names : Names) (arena : Arena) (text : List Char) :
    Except Fault (Operand × Lowering) :=
  let text := Text.trim text
  match Expr.parse text with
  | .error reason => .error (.invalidExpression (String.ofList text) reason)
  | .ok ast => .ok ((operandOf names text ast).run { arena })

end Lowering

end TemplateEngine

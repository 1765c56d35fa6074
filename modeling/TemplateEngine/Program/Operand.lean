import TemplateEngine.Expr.Syntax
import TemplateEngine.Program.Slots
import TemplateEngine.Value.Text

/-! Compiled operands. The nodes of larger expressions live in an arena that all operands of a
template share; a node refers to earlier nodes only. -/
namespace TemplateEngine

/-- A node's place in the arena. -/
abbrev ExprId := Nat

inductive Root where
  | slot (s : SlotId)
  | constant (v : Value)
  | target

inductive Access where
  | field (name : String)
  | index (i : Int64)
  | key (k : String)
  | call (name : String) (args : List ExprId)

/-- An access as it is written, with the given text for each argument. -/
def Access.text (exprText : ExprId → String) : Access → String
  | .field name => "." ++ name
  | .index i => "[" ++ intText i ++ "]"
  | .key k => "[" ++ Text.quote k ++ "]"
  | .call name args => "." ++ name ++ "(" ++ ", ".intercalate (args.map exprText) ++ ")"

structure Path where
  root : Root
  accesses : List Access := []

/-- A path as it is written, after the text of its root. -/
def Path.text (exprText : ExprId → String) (root : String) (p : Path) : String :=
  p.accesses.foldl (fun text a => text ++ a.text exprText) root

inductive Node where
  | const (v : Value)
  | path (p : Path)
  | unary (op : Expr.UnaryOp) (operand : ExprId)
  | binary (op : Expr.BinaryOp) (left right : ExprId)

/-- The nodes, the newest first. -/
structure Arena where
  nodes : List Node := []

namespace Arena

def size (a : Arena) : Nat :=
  a.nodes.length

/-- Adds a node. Its place is the number of nodes before it. -/
def alloc (a : Arena) (n : Node) : Arena × ExprId :=
  (⟨n :: a.nodes⟩, a.size)

end Arena

inductive Operand where
  | constant (v : Value)
  | slot (s : SlotId)
  | path (p : Path)
  | expr (id : ExprId)

end TemplateEngine

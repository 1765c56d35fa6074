import TemplateEngine.Value.Basic

/-! Operands as trees, before their names are known. -/
namespace TemplateEngine.Expr

inductive UnaryOp where
  | not
  | neg
  deriving DecidableEq, Repr

inductive BinaryOp where
  | add | sub | mul | div | mod
  | eq | ne | lt | le | gt | ge
  | and | or
  deriving DecidableEq, Repr

def UnaryOp.symbol : UnaryOp → String
  | .not => "!"
  | .neg => "-"

def BinaryOp.symbol : BinaryOp → String
  | .add => "+"
  | .sub => "-"
  | .mul => "*"
  | .div => "/"
  | .mod => "%"
  | .eq => "=="
  | .ne => "!="
  | .lt => "<"
  | .le => "<="
  | .gt => ">"
  | .ge => ">="
  | .and => "&&"
  | .or => "||"

inductive Head where
  | name (s : String)
  | this
  | literal (v : Value)

mutual

inductive Ast where
  | const (v : Value)
  | path (head : Head) (steps : List Step)
  | unary (op : UnaryOp) (operand : Ast)
  | binary (op : BinaryOp) (left right : Ast)

inductive Step where
  | field (name : String)
  | index (i : Int64)
  | key (k : String)
  | call (name : String) (args : List Ast)

end

end TemplateEngine.Expr

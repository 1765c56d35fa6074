import TemplateEngine.Expr.Syntax
import TemplateEngine.Expr.Token

/-! The grammar of operands. Each rule tells which tokens a form is made of and the tree that they
stand for; nothing is said about how a form is found. -/
namespace TemplateEngine.Expr

/-- The binary operators by how tight they bind, the loosest first. -/
inductive Layer where
  | or | and | equality | comparison | sum | product
  deriving DecidableEq

def Layer.all : List Layer :=
  [.or, .and, .equality, .comparison, .sum, .product]

/-- The binary operator that is written so, with its layer. -/
def Punct.operator? : Punct → Option (Layer × BinaryOp)
  | .either => some (.or, .or)
  | .both => some (.and, .and)
  | .equal => some (.equality, .eq)
  | .notEqual => some (.equality, .ne)
  | .lessEqual => some (.comparison, .le)
  | .greaterEqual => some (.comparison, .ge)
  | .less => some (.comparison, .lt)
  | .greater => some (.comparison, .gt)
  | .plus => some (.sum, .add)
  | .minus => some (.sum, .sub)
  | .star => some (.product, .mul)
  | .slash => some (.product, .div)
  | .percent => some (.product, .mod)
  | .dot | .comma | .openBracket | .closeBracket | .openParen | .closeParen | .bang => none

namespace Grammar

inductive Literal : Token → Value → Prop where
  | int (n : Int64) : Literal (.int n) (.int n)
  | float (x : Float) : Literal (.float x) (.float x)
  | str (s : String) : Literal (.str s) (.str s)
  | true : Literal (.name "true") (.bool true)
  | false : Literal (.name "false") (.bool false)
  | null : Literal (.name "null") .null

/-- A name that is no literal. The word for the operation target is one of them. -/
inductive Identifier : Token → Head → Prop where
  | this : Identifier (.name "this") .this
  | name {s : String} : s ∉ Text.reserved → Identifier (.name s) (.name s)

/-- Trees whose sign a minus changes when they are read. -/
def IsNumber : Ast → Prop
  | .const (.int _) | .const (.float _) => True
  | _ => False

mutual

/-- Operands with operators of some layers between them, of which the first binds least. -/
inductive Layered : List Layer → List Token → Ast → Prop where
  | prefixed {ts : List Token} {ast : Ast} : Prefixed ts ast → Layered [] ts ast
  | operators {l : Layer} {tighter : List Layer} {ts us : List Token} {first ast : Ast} :
    Layered tighter ts first → Continued l tighter first us ast →
      Layered (l :: tighter) (ts ++ us) ast

/-- As many operators of a layer, each with its right operand, as there are. What stands to the left
of an operator is its left operand as a whole. -/
inductive Continued : Layer → List Layer → Ast → List Token → Ast → Prop where
  | done {l : Layer} {tighter : List Layer} {left : Ast} : Continued l tighter left [] left
  | operator {l : Layer} {tighter : List Layer} {p : Punct} {op : BinaryOp} {ts us : List Token}
    {left right ast : Ast} : p.operator? = some (l, op) → Layered tighter ts right →
      Continued l tighter (.binary op left right) us ast →
        Continued l tighter left (.punct p :: (ts ++ us)) ast

inductive Prefixed : List Token → Ast → Prop where
  | not {ts : List Token} {ast : Ast} :
    Prefixed ts ast → Prefixed (.punct .bang :: ts) (.unary .not ast)
  | negInt {ts : List Token} {n : Int64} :
    Prefixed ts (.const (.int n)) → Prefixed (.punct .minus :: ts) (.const (.int (-n)))
  | negFloat {ts : List Token} {x : Float} :
    Prefixed ts (.const (.float x)) → Prefixed (.punct .minus :: ts) (.const (.float (-x)))
  | neg {ts : List Token} {ast : Ast} :
    Prefixed ts ast → ¬IsNumber ast → Prefixed (.punct .minus :: ts) (.unary .neg ast)
  | postfixed {ts : List Token} {ast : Ast} : Postfixed ts ast → Prefixed ts ast

inductive Postfixed : List Token → Ast → Prop where
  | parens {ts : List Token} {ast : Ast} : Layered Layer.all ts ast →
      Postfixed (.punct .openParen :: (ts ++ [.punct .closeParen])) ast
  | constant {t : Token} {v : Value} : Literal t v → Postfixed [t] (.const v)
  | literal {t : Token} {v : Value} {ts : List Token} {s : Step} {more : List Step} :
    Literal t v → Accessors ts (s :: more) → Postfixed (t :: ts) (.path (.literal v) (s :: more))
  | identifier {t : Token} {head : Head} {ts : List Token} {steps : List Step} :
    Identifier t head → Accessors ts steps → Postfixed (t :: ts) (.path head steps)

inductive Accessors : List Token → List Step → Prop where
  | nil : Accessors [] []
  | cons {ts us : List Token} {s : Step} {more : List Step} :
    Accessor ts s → Accessors us more → Accessors (ts ++ us) (s :: more)

/-- One access. Any name can be that of a field or a method. -/
inductive Accessor : List Token → Step → Prop where
  | field (s : String) : Accessor [.punct .dot, .name s] (.field s)
  | call (s : String) :
    Accessor [.punct .dot, .name s, .punct .openParen, .punct .closeParen] (.call s [])
  | callWith {s : String} {ts : List Token} {args : List Ast} : Arguments ts args →
      Accessor (.punct .dot :: .name s :: .punct .openParen :: (ts ++ [.punct .closeParen]))
        (.call s args)
  | index (n : Int64) : Accessor [.punct .openBracket, .int n, .punct .closeBracket] (.index n)
  | indexFromEnd (n : Int64) :
    Accessor [.punct .openBracket, .punct .minus, .int n, .punct .closeBracket] (.index (-n))
  | key (k : String) : Accessor [.punct .openBracket, .str k, .punct .closeBracket] (.key k)

inductive Arguments : List Token → List Ast → Prop where
  | last {ts : List Token} {ast : Ast} : Layered Layer.all ts ast → Arguments ts [ast]
  | cons {ts us : List Token} {ast : Ast} {args : List Ast} : Layered Layer.all ts ast →
      Arguments us args → Arguments (ts ++ .punct .comma :: us) (ast :: args)

end

/-- A whole operand. -/
abbrev Expression : List Token → Ast → Prop :=
  Layered Layer.all

end Grammar

end TemplateEngine.Expr

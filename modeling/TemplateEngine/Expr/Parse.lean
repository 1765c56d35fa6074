import TemplateEngine.Expr.Syntax
import TemplateEngine.Expr.Tokens

/-! Reading an operand from its tokens: six levels of left-associative operators above prefix
operators, above a value followed by accesses. Each level is built from the one below it, and only
parentheses and arguments lead back to the top. -/
namespace TemplateEngine.Expr

/-- Reads something from the front of the tokens and answers what is left. -/
abbrev Parser (α : Type) := List Token → Except SyntaxError (α × List Token)

def operatorAt? (level : List (Punct × BinaryOp)) : List Token → Option (BinaryOp × List Token)
  | .punct p :: rest => (level.lookup p).map (·, rest)
  | _ => none

/-- Continues `left` with as many operators of a level and operands as there are. Each takes a
token, so the number of tokens bounds their number. -/
def chain (level : List (Punct × BinaryOp)) (operand : Parser Ast) : Nat → Ast → Parser Ast
  | 0, left, ts => .ok (left, ts)
  | bound + 1, left, ts =>
    match operatorAt? level ts with
    | none => .ok (left, ts)
    | some (op, rest) =>
      match operand rest with
      | .error e => .error e
      | .ok (right, rest) => chain level operand bound (.binary op left right) rest

def leftAssoc (level : List (Punct × BinaryOp)) (operand : Parser Ast) : Parser Ast := fun ts =>
  match operand ts with
  | .error e => .error e
  | .ok (left, rest) => chain level operand rest.length left rest

/-- The operators, the loosest level first. -/
def levels : List (List (Punct × BinaryOp)) := [
  [(.either, .or)],
  [(.both, .and)],
  [(.equal, .eq), (.notEqual, .ne)],
  [(.lessEqual, .le), (.greaterEqual, .ge), (.less, .lt), (.greater, .gt)],
  [(.plus, .add), (.minus, .sub)],
  [(.star, .mul), (.slash, .div), (.percent, .mod)]]

def expect (p : Punct) : List Token → Except SyntaxError (List Token)
  | [] => .error (.expected p none)
  | .punct q :: rest => if p = q then .ok rest else .error (.expected p (some (.punct q)))
  | t :: _ => .error (.expected p (some t))

/-- Arguments up to the closing parenthesis, of which there is at least one. -/
def arguments (inner : Parser Ast) : Nat → Parser (List Ast)
  | 0, _ => .error .unexpectedEnd
  | bound + 1, ts =>
    match inner ts with
    | .error e => .error e
    | .ok (arg, .punct .closeParen :: rest) => .ok ([arg], rest)
    | .ok (arg, rest) =>
      match expect .comma rest with
      | .error e => .error e
      | .ok rest =>
        match arguments inner bound rest with
        | .error e => .error e
        | .ok (args, rest) => .ok (arg :: args, rest)

/-- What follows a point: a field, or a method and its arguments. -/
def member (inner : Parser Ast) : Parser Step
  | .name s :: .punct .openParen :: .punct .closeParen :: rest => .ok (.call s [], rest)
  | .name s :: .punct .openParen :: rest =>
    match arguments inner (rest.length + 1) rest with
    | .error e => .error e
    | .ok (args, rest) => .ok (.call s args, rest)
  | .name s :: rest => .ok (.field s, rest)
  | t :: _ => .error (.expectedField (some t))
  | [] => .error (.expectedField none)

/-- What follows an opening bracket: a whole number, negative or not, or a string. -/
def subscript : Parser Step := fun ts =>
  let (step, rest) : Option Step × List Token :=
    match ts with
    | .punct .minus :: .int n :: rest => (some (.index (-n)), rest)
    | .int n :: rest => (some (.index n), rest)
    | .str k :: rest => (some (.key k), rest)
    | _ => (none, [])
  match step with
  | none => .error .invalidIndex
  | some step =>
    match expect .closeBracket rest with
    | .error e => .error e
    | .ok rest => .ok (step, rest)

/-- As many accesses as there are. Each takes a token. -/
def steps (inner : Parser Ast) : Nat → Parser (List Step)
  | 0, ts => .ok ([], ts)
  | bound + 1, ts =>
    let next : Option (Except SyntaxError (Step × List Token)) :=
      match ts with
      | .punct .dot :: rest => some (member inner rest)
      | .punct .openBracket :: rest => some (subscript rest)
      | _ => none
    match next with
    | none => .ok ([], ts)
    | some (.error e) => .error e
    | some (.ok (step, rest)) =>
      match steps inner bound rest with
      | .error e => .error e
      | .ok (more, rest) => .ok (step :: more, rest)

def Token.head? : Token → Option Head
  | .int n => some (.literal (.int n))
  | .float x => some (.literal (.float x))
  | .str s => some (.literal (.str s))
  | .name "true" => some (.literal (.bool true))
  | .name "false" => some (.literal (.bool false))
  | .name "null" => some (.literal .null)
  | .name "this" => some .this
  | .name s => some (.name s)
  | .punct _ => none

/-- A head and its accesses; a literal without any is a constant. -/
def Ast.ofPath : Head → List Step → Ast
  | .literal v, [] => .const v
  | head, steps => .path head steps

/-- A value and its accesses, or anything in parentheses, which has none. -/
def postfixed (inner : Parser Ast) : Parser Ast
  | [] => .error .unexpectedEnd
  | .punct .openParen :: rest =>
    match inner rest with
    | .error e => .error e
    | .ok (ast, rest) =>
      match expect .closeParen rest with
      | .error e => .error e
      | .ok rest => .ok (ast, rest)
  | t :: rest =>
    match t.head? with
    | none => .error (.unexpected t)
    | some head =>
      match steps inner rest.length rest with
      | .error e => .error e
      | .ok (more, rest) => .ok (.ofPath head more, rest)

/-- A minus sign in front of a number is part of the number. -/
def Ast.negated : Ast → Ast
  | .const (.int n) => .const (.int (-n))
  | .const (.float x) => .const (.float (-x))
  | ast => .unary .neg ast

/-- Prefix operators, which bind tighter than all others. -/
def prefixed (inner : Parser Ast) : Parser Ast
  | .punct .bang :: rest =>
    match prefixed inner rest with
    | .error e => .error e
    | .ok (ast, rest) => .ok (.unary .not ast, rest)
  | .punct .minus :: rest =>
    match prefixed inner rest with
    | .error e => .error e
    | .ok (ast, rest) => .ok (ast.negated, rest)
  | ts => postfixed inner ts

/-- Everything below `bound` pairs of parentheses. -/
def expression : (bound : Nat) → Parser Ast
  | 0 => fun _ => .error .unexpectedEnd
  | bound + 1 => levels.foldr leftAssoc (prefixed (expression bound))

/-- The tree of a whole list of tokens. Each pair of parentheses takes tokens, so their number
bounds the depth. -/
def ofTokens (ts : List Token) : Except SyntaxError Ast :=
  match ts with
  | [] => .error .empty
  | _ =>
    match expression (ts.length + 1) ts with
    | .error e => .error e
    | .ok (ast, []) => .ok ast
    | .ok (_, t :: _) => .error (.unexpected t)

def parse (cs : List Char) : Except SyntaxError Ast :=
  match tokens cs with
  | .error e => .error e
  | .ok ts => ofTokens ts

end TemplateEngine.Expr

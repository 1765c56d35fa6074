import TemplateEngine.Proofs.Syntax.Reading

/-! Reading an operand with a choice of what a minus sign makes of what follows it. Apart from that
the parser is the same, so that what it does to numbers can be told from the rest. -/
namespace TemplateEngine.Expr

/-- What a minus sign makes of an operand, and of a number between brackets. -/
structure Signs where
  operand : Ast → Except SyntaxError Ast
  index : Int64 → Except SyntaxError Int64

namespace Signs

/-- A number and the sign in front of it are one number. -/
def folded : Signs where
  operand ast := .ok ast.negated
  index n := .ok (-n)

/-- The number of the opposite sign, if a word holds it. -/
def opposite? (n : Int64) : Option Int64 :=
  Decimal.toInt64? (-n.toInt)

/-- A number without an opposite is reported. -/
def checked (report : SyntaxError) : Signs where
  operand
    | .const (.int n) => ((opposite? n).map fun m => .const (.int m)).elim (.error report) .ok
    | ast => .ok ast.negated
  index n := (opposite? n).elim (.error report) .ok

/-- A sign in front of an operand stays an operator. -/
def written : Signs where
  operand ast := .ok (.unary .neg ast)
  index n := .ok (-n)

variable (signs : Signs) (inner : Parser Ast)

def subscript : Parser Step
  | .punct .minus :: .int n :: rest =>
    match signs.index n with
    | .error e => .error e
    | .ok m => Expr.subscript (.int m :: rest)
  | ts => Expr.subscript ts

def access? : List Token → Option (Except SyntaxError (Step × List Token))
  | .punct .dot :: rest => some (member inner rest)
  | .punct .openBracket :: rest => some (signs.subscript rest)
  | _ => none

def steps : Nat → Parser (List Step)
  | 0, ts => .ok ([], ts)
  | bound + 1, ts =>
    match signs.access? inner ts with
    | none => .ok ([], ts)
    | some (.error e) => .error e
    | some (.ok (step, rest)) =>
      match steps bound rest with
      | .error e => .error e
      | .ok (more, rest) => .ok (step :: more, rest)

def postfixed : Parser Ast
  | [] => .error .unexpectedEnd
  | .punct .openParen :: rest =>
    match inner rest with
    | .error e => .error e
    | .ok (ast, rest) =>
      match expect .closeParen rest with
      | .error e => .error e
      | .ok rest => .ok (ast, rest)
  | t :: rest =>
    match t.head? with
    | none => .error (.unexpected t)
    | some head =>
      match signs.steps inner rest.length rest with
      | .error e => .error e
      | .ok (more, rest) => .ok (.ofPath head more, rest)

def prefixed : Parser Ast
  | .punct .bang :: rest =>
    match prefixed rest with
    | .error e => .error e
    | .ok (ast, rest) => .ok (.unary .not ast, rest)
  | .punct .minus :: rest =>
    match prefixed rest with
    | .error e => .error e
    | .ok (ast, rest) =>
      match signs.operand ast with
      | .error e => .error e
      | .ok ast => .ok (ast, rest)
  | ts => signs.postfixed inner ts

def expression : (bound : Nat) → Parser Ast
  | 0 => fun _ => .error .unexpectedEnd
  | bound + 1 => levels.foldr leftAssoc (signs.prefixed (expression bound))

def ofTokens (ts : List Token) : Except SyntaxError Ast :=
  match ts with
  | [] => .error .empty
  | _ =>
    match signs.expression (ts.length + 1) ts with
    | .error e => .error e
    | .ok (ast, []) => .ok ast
    | .ok (_, t :: _) => .error (.unexpected t)

def parse (cs : List Char) : Except SyntaxError Ast :=
  match tokens cs with
  | .error e => .error e
  | .ok ts => signs.ofTokens ts

/-! With numbers taken together with their signs it is the parser of operands. -/

theorem subscript_folded : folded.subscript = Expr.subscript := by
  funext ts
  unfold subscript
  split <;> rfl

theorem access?_folded : folded.access? inner = Expr.access? inner := by
  funext ts
  unfold access? Expr.access?
  rewrite [subscript_folded]
  rfl

theorem steps_folded : folded.steps inner = Expr.steps inner := by
  funext bound
  induction bound with
  | zero => rfl
  | succ bound ih =>
    funext ts
    rewrite [steps, steps_succ, ih, access?_folded]
    rfl

theorem postfixed_folded : folded.postfixed inner = Expr.postfixed inner := by
  funext ts
  unfold postfixed Expr.postfixed
  rewrite [steps_folded]
  rfl

theorem prefixed_folded : folded.prefixed inner = Expr.prefixed inner := by
  funext ts
  fun_induction Expr.prefixed inner ts with
  | case1 rest e he ih => rw [prefixed, ih, he]
  | case2 rest ast rest' h ih => rw [prefixed, ih, h]
  | case3 rest e he ih => rw [prefixed, ih, he]
  | case4 rest ast rest' h ih =>
    rewrite [prefixed, ih, h]
    rfl
  | case5 ts hbang hminus => rw [prefixed, postfixed_folded] <;> assumption

theorem expression_folded (bound : Nat) : folded.expression bound = Expr.expression bound := by
  induction bound with
  | zero => rfl
  | succ bound ih => rw [expression, Expr.expression, ih, prefixed_folded]

theorem ofTokens_folded (ts : List Token) : folded.ofTokens ts = Expr.ofTokens ts := by
  unfold ofTokens Expr.ofTokens
  rewrite [expression_folded]
  rfl

theorem parse_folded (cs : List Char) : folded.parse cs = Expr.parse cs := by
  unfold parse Expr.parse
  cases tokens cs with
  | error e => rfl
  | ok ts => exact ofTokens_folded ts

end Signs

end TemplateEngine.Expr

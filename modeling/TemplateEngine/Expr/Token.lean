import TemplateEngine.Decimal.Reading
import TemplateEngine.Text.Name
import TemplateEngine.Value.Text

/-! The tokens of an operand. -/
namespace TemplateEngine.Expr

inductive Punct where
  | equal | notEqual | lessEqual | greaterEqual | both | either
  | dot | comma | openBracket | closeBracket | openParen | closeParen
  | bang | minus | plus | star | slash | percent | less | greater
  deriving DecidableEq, Repr

def Punct.symbol : Punct → String
  | .equal => "=="
  | .notEqual => "!="
  | .lessEqual => "<="
  | .greaterEqual => ">="
  | .both => "&&"
  | .either => "||"
  | .dot => "."
  | .comma => ","
  | .openBracket => "["
  | .closeBracket => "]"
  | .openParen => "("
  | .closeParen => ")"
  | .bang => "!"
  | .minus => "-"
  | .plus => "+"
  | .star => "*"
  | .slash => "/"
  | .percent => "%"
  | .less => "<"
  | .greater => ">"

/-- The punctuation that a text begins with, two characters before one, and what follows it. -/
def Punct.read? : List Char → Option (Punct × List Char)
  | '=' :: '=' :: rest => some (.equal, rest)
  | '!' :: '=' :: rest => some (.notEqual, rest)
  | '<' :: '=' :: rest => some (.lessEqual, rest)
  | '>' :: '=' :: rest => some (.greaterEqual, rest)
  | '&' :: '&' :: rest => some (.both, rest)
  | '|' :: '|' :: rest => some (.either, rest)
  | '.' :: rest => some (.dot, rest)
  | ',' :: rest => some (.comma, rest)
  | '[' :: rest => some (.openBracket, rest)
  | ']' :: rest => some (.closeBracket, rest)
  | '(' :: rest => some (.openParen, rest)
  | ')' :: rest => some (.closeParen, rest)
  | '!' :: rest => some (.bang, rest)
  | '-' :: rest => some (.minus, rest)
  | '+' :: rest => some (.plus, rest)
  | '*' :: rest => some (.star, rest)
  | '/' :: rest => some (.slash, rest)
  | '%' :: rest => some (.percent, rest)
  | '<' :: rest => some (.less, rest)
  | '>' :: rest => some (.greater, rest)
  | _ => none

inductive Token where
  | name (s : String)
  | int (n : Int64)
  | float (x : Float)
  | str (s : String)
  | punct (p : Punct)

/-- How a message shows a token: strings in double quotes, all else in backquotes. -/
def Token.describe : Token → String
  | .name s => "`" ++ s ++ "`"
  | .int n => "`" ++ intText n ++ "`"
  | .float x => "`" ++ floatText x ++ "`"
  | .str s => Text.quote s
  | .punct p => "`" ++ p.symbol ++ "`"

inductive SyntaxError where
  | empty
  | unexpectedChar (c : Char)
  | invalidNumber (text : String)
  | unterminatedString
  | unexpected (found : Token)
  | unexpectedEnd
  | expected (p : Punct) (found : Option Token)
  | expectedField (found : Option Token)
  | invalidIndex
  | missingBinding

def SyntaxError.message : SyntaxError → String
  | .empty => "empty expression"
  | .unexpectedChar c => "unexpected character `" ++ c.toString ++ "`"
  | .invalidNumber text => "invalid number `" ++ text ++ "`"
  | .unterminatedString => "unterminated string"
  | .unexpected found => "unexpected " ++ found.describe
  | .unexpectedEnd => "unexpected end of expression"
  | .expected p (some found) => "expected `" ++ p.symbol ++ "`, found " ++ found.describe
  | .expected p none => "expected `" ++ p.symbol ++ "`, found end of expression"
  | .expectedField (some found) => "expected field name, found " ++ found.describe
  | .expectedField none => "expected field name after `.`"
  | .invalidIndex => "index must be an integer or string literal"
  | .missingBinding => "expected `name=value`"

def unescape (c : Char) : Char :=
  if c = 'n' then '\n' else if c = 't' then '\t' else if c = 'r' then '\r' else c

/-- A string up to its closing `mark`, and what follows it. `seen` is the reverse of what the
string holds so far. -/
def readString (mark : Char) (seen : List Char) : List Char → Option (List Char × List Char)
  | [] => none
  | '\\' :: c :: rest => readString mark (unescape c :: seen) rest
  | c :: rest =>
    if c = '\\' then none
    else if c = mark then some (seen.reverse, rest)
    else readString mark (c :: seen) rest

/-- A number: digits, and a fraction if a point and a digit follow. -/
def readNumber (cs : List Char) : Except SyntaxError Token × List Char :=
  let whole := cs.takeWhile (·.isDigit)
  let rest := cs.dropWhile (·.isDigit)
  match rest with
  | '.' :: d :: after =>
    if d.isDigit then
      let fraction := (d :: after).takeWhile (·.isDigit)
      let x := Decimal.floatOfDecimal false (whole ++ fraction) (-fraction.length)
      (.ok (.float x), (d :: after).dropWhile (·.isDigit))
    else (integer whole, rest)
  | _ => (integer whole, rest)
where
  integer (whole : List Char) : Except SyntaxError Token :=
    match Decimal.readInt64? whole with
    | some n => .ok (.int n)
    | none => .error (.invalidNumber (String.ofList whole))

/-- The first token of a text that begins with `c`, which is no blank, and what follows it. -/
def readToken (c : Char) (rest : List Char) : Except SyntaxError (Token × List Char) :=
  if c.isDigit then
    let (token, after) := readNumber (c :: rest)
    token.map (·, after)
  else if Text.isNameStart c then
    .ok (.name (String.ofList (c :: rest.takeWhile Text.isNamePart)),
      rest.dropWhile Text.isNamePart)
  else if c = '\x22' ∨ c = '\x27' then
    match readString c [] rest with
    | some (s, after) => .ok (.str (String.ofList s), after)
    | none => .error .unterminatedString
  else
    match Punct.read? (c :: rest) with
    | some (p, after) => .ok (.punct p, after)
    | none => .error (.unexpectedChar c)

end TemplateEngine.Expr

import TemplateEngine.Command.Error
import TemplateEngine.Decimal.Reading
import TemplateEngine.Text.Split

/-! Parameters from the command line: a name, an equals sign, and a value whose type is told by how
it is written. -/
namespace TemplateEngine.Binding

/-- The text between two quotes, if they enclose all of it. -/
def unquote? (quote : Char) : List Char → Option (List Char)
  | [] => none
  | c :: rest => if c = quote ∧ rest.getLast? = some quote then some rest.dropLast else none

/-- A number with a fraction or an exponent. Words for infinity and not-a-number have no digits, and
are not taken for numbers here. -/
def readNumber? (cs : List Char) : Option Float :=
  if cs.any (·.isDigit) then Decimal.readFloat? cs else none

def readWord? : List Char → Option Value
  | ['t', 'r', 'u', 'e'] => some (.bool true)
  | ['f', 'a', 'l', 's', 'e'] => some (.bool false)
  | ['n', 'u', 'l', 'l'] => some .null
  | _ => none

/-- A value as it is written on the command line: a number, a word that stands for a value, or text,
which may be in quotes to keep it from being taken for one of the others. -/
def readValue (cs : List Char) : Value :=
  let number? := (Decimal.readInt64? cs).map Value.int <|> (readNumber? cs).map Value.float
  let text := ((unquote? '"' cs <|> unquote? '\'' cs).getD cs)
  (number? <|> readWord? cs).getD (.str (String.ofList text))

/-- A name and a value with the first equals sign between them. -/
def read (text : String) : Except CommandError (String × Value) :=
  match Text.splitOnce '=' text.toList with
  | some (name, value) =>
    if Text.isAllBlank name then .error (.invalidBinding text)
    else .ok (String.ofList (Text.trim name), readValue value)
  | none => .error (.invalidBinding text)

@[simp] theorem unquote?_enclosed (quote : Char) (cs : List Char) :
    unquote? quote (quote :: (cs ++ [quote])) = some cs := by
  simp [unquote?]

end TemplateEngine.Binding

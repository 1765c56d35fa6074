import TemplateEngine.Text.CharClass

/-! What a variable, a parameter and a template may be called. -/
namespace TemplateEngine.Text

def isNameStart (c : Char) : Bool :=
  isAlphabetic c || c == '_'

def isNamePart (c : Char) : Bool :=
  isAlphanumeric c || c == '_'

/-- Words that stand for a value wherever a name could stand. -/
def reserved : List String := ["true", "false", "null", "this"]

def isName (cs : List Char) : Bool :=
  match cs with
  | [] => false
  | c :: rest => isNameStart c && rest.all isNamePart && !reserved.contains (String.ofList cs)

end TemplateEngine.Text

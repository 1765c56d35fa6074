import TemplateEngine.Host
import TemplateEngine.Run.Failure
import TemplateEngine.Text.Case
import TemplateEngine.Text.Split

/-! The methods of strings, lists and maps. A method of an object is up to its host. -/
namespace TemplateEngine.Methods

/-- A number that is too large for its word is the largest one. -/
def countValue (n : Nat) : Value :=
  .int (.ofIntClamp n)

def ofChars (cs : List Char) : Value :=
  .str (String.ofList cs)

def noMethod (receiver : Value) (method : String) : Except Failure Value :=
  .error (.noMethod method receiver.typeName)

def nullary (method : String) (args : List Value) (answer : Value) : Except Failure Value :=
  if args.isEmpty then .ok answer else .error (.wrongArgCount method 0 args.length)

def unary (method : String) (args : List Value) (answer : Value → Except Failure Value) :
    Except Failure Value :=
  match args with
  | [arg] => answer arg
  | _ => .error (.wrongArgCount method 1 args.length)

def onString (method : String) (args : List Value) (answer : String → Value) :
    Except Failure Value :=
  unary method args fun arg =>
    match arg with
    | .str s => .ok (answer s)
    | v => .error (.notAString method v.typeName)

def ofString (s : String) (method : String) (args : List Value) : Except Failure Value :=
  match method with
  | "len" => nullary method args (countValue s.length)
  | "is_empty" => nullary method args (.bool s.isEmpty)
  | "upper" => nullary method args (ofChars (Text.upper s.toList))
  | "lower" => nullary method args (ofChars (Text.lower s.toList))
  | "trim" => nullary method args (ofChars (Text.trim s.toList))
  | "contains" => onString method args fun t => .bool (Text.occursIn t.toList s.toList)
  | "starts_with" => onString method args fun t => .bool (t.toList.isPrefixOf s.toList)
  | "ends_with" => onString method args fun t => .bool (t.toList.isSuffixOf s.toList)
  | _ => noMethod (.str s) method

def ofList (items : List Value) (method : String) (args : List Value) : Except Failure Value :=
  match method with
  | "len" => nullary method args (countValue items.length)
  | "is_empty" => nullary method args (.bool items.isEmpty)
  | "first" => nullary method args (items.head?.getD .null)
  | "last" => nullary method args (items.getLast?.getD .null)
  | "contains" => unary method args fun v => .ok (.bool (items.any (·.equal v)))
  | "join" => onString method args fun sep => .str (sep.intercalate (items.map Value.render))
  | _ => noMethod (.list items) method

def ofMap (entries : List (String × Value)) (method : String) (args : List Value) :
    Except Failure Value :=
  match method with
  | "len" => nullary method args (countValue entries.length)
  | "is_empty" => nullary method args (.bool entries.isEmpty)
  | "keys" => nullary method args (.list (entries.map fun e => .str e.1))
  | "values" => nullary method args (.list (entries.map (·.2)))
  | "contains_key" => onString method args fun k => .bool (entries.lookup k).isSome
  | _ => noMethod (.map entries) method

def call (host : Host) (receiver : Value) (method : String) (args : List Value) :
    Except Failure Value :=
  match receiver with
  | .str s => ofString s method args
  | .list items => ofList items method args
  | .map entries => ofMap entries method args
  | .object o =>
    match host.call o method args with
    | .ok v => .ok v
    | .error reason => .error (.methodFailed method reason)
  | _ => noMethod receiver method

end TemplateEngine.Methods

/-! Run-time values: what slots hold, what expressions produce and what is rendered. -/
namespace TemplateEngine

abbrev TemplateId := Nat

structure TemplateRef where
  id : TemplateId
  name : String
  deriving DecidableEq, Repr

/-- An object of the host program. What a template can see of it without asking the host is fixed:
the name of its type, the text it renders as, and the text that stands for it in a listing. -/
structure ObjectRef where
  id : Nat
  typeName : String
  text : String
  listed : String
  deriving DecidableEq, Repr

/-- The entries of a map are in increasing order of their keys, each key once; see
`Value.ofEntries`. -/
inductive Value where
  | null
  | bool (b : Bool)
  | int (n : Int64)
  | float (x : Float)
  | str (s : String)
  | list (items : List Value)
  | map (entries : List (String × Value))
  | object (o : ObjectRef)
  | template (t : TemplateRef)
  deriving Inhabited

namespace Value

/-- Adds an entry to a map; an entry with the same key is replaced. -/
def insertEntry (key : String) (v : Value) : List (String × Value) → List (String × Value)
  | [] => [(key, v)]
  | (k, w) :: rest =>
    if key < k then (key, v) :: (k, w) :: rest
    else if key = k then (key, v) :: rest
    else (k, w) :: insertEntry key v rest

/-- The map with the given entries; of two with one key the later counts. -/
def ofEntries (entries : List (String × Value)) : Value :=
  .map (entries.foldl (fun m e => insertEntry e.1 e.2 m) [])

def isNull : Value → Bool
  | .null => true
  | _ => false

/-- What counts as true in a condition: nothing is false but null, `false` and a zero. -/
def isTruthy : Value → Bool
  | .null => false
  | .bool b => b
  | .int n => n != 0
  | .float x => x != 0.0
  | _ => true

def typeName : Value → String
  | .null => "null"
  | .bool _ => "bool"
  | .int _ => "int"
  | .float _ => "float"
  | .str _ => "str"
  | .list _ => "list"
  | .map _ => "map"
  | .object o => o.typeName
  | .template _ => "template"

def asInt? : Value → Option Int64
  | .int n => some n
  | _ => none

def asStr? : Value → Option String
  | .str s => some s
  | _ => none

def asTemplate? : Value → Option TemplateRef
  | .template t => some t
  | _ => none

mutual

/-- Equality as `==` decides it. A whole number equals a floating-point number of the same value,
containers are equal item by item, objects and templates by identity. -/
def equal : Value → Value → Bool
  | .null, .null => true
  | .bool a, .bool b => a == b
  | .int a, .int b => a == b
  | .float a, .float b => a == b
  | .int a, .float b => a.toFloat == b
  | .float a, .int b => b.toFloat == a
  | .str a, .str b => a == b
  | .list as, .list bs => equalItems as bs
  | .map as, .map bs => equalEntries as bs
  | .object a, .object b => a.id == b.id
  | .template a, .template b => a.id == b.id
  | _, _ => false

def equalItems : List Value → List Value → Bool
  | [], [] => true
  | a :: as, b :: bs => equal a b && equalItems as bs
  | _, _ => false

def equalEntries : List (String × Value) → List (String × Value) → Bool
  | [], [] => true
  | (k, a) :: as, (l, b) :: bs => k == l && equal a b && equalEntries as bs
  | _, _ => false

end

end Value

end TemplateEngine

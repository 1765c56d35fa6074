import TemplateEngine.Compile.Tables
import TemplateEngine.Proofs.Bytes.Operands

/-! What a marker says on its own, with its operands read by their bytes. -/
namespace TemplateEngine.Tables

def operand? (o : CompileOptions) (t : Tables) (text : List Char) :
    Lookup Fault (Operand × List String × Tables) := do
  let (source, after) ← Lowering.ofText? ⟨t.slots, o.constants⟩ t.arena text
  return (source, after.unknown, { t with arena := after.arena })

def headerOperand? (o : CompileOptions) (t : Tables) (text : List Char) :
    Lookup Fault (Operand × List String × Tables) := do
  let (source, unknown, t) ← t.operand? o text
  return (if unknown.isEmpty then source else .constant .null, unknown, t)

def write? (o : CompileOptions) (t : Tables) (path : List Char) :
    Lookup Fault (List Action × Tables) := do
  let (source, unknown, t) ← t.operand? o path
  return (if unknown.isEmpty then [.variable source] else notes unknown, t)

def loopHeader? (o : CompileOptions) (t : Tables) (var container : List Char) :
    Lookup Fault (Loop × List String × Tables) := do
  let (container, unknown, t) ← t.headerOperand? o container
  let (entry, t) ← .total (t.declare var)
  let (next, t) ← .total (t.declare (lookahead var))
  return (⟨container, entry, next⟩, unknown, t)

def set? (o : CompileOptions) (t : Tables) (var value : List Char) :
    Lookup Fault (List Action × Tables) := do
  let (value, unknown, t) ← t.operand? o value
  let (target, t) ← .total (t.declare var)
  return (notes unknown ++ [.set target value], t)

def argument? (o : CompileOptions) (t : Tables) (known : Option Template) (text : List Char) :
    Lookup Fault (Argument × List String × Tables) :=
  match Text.splitOnce '=' text with
  | none => throw (.invalidExpression (String.ofList (Text.trim text)) .missingBinding)
  | some (param, value) => do
    let param := Text.trim param
    let name := String.ofList param
    if !Text.isName param then throw (.invalidName name)
    let slot ← .total (argumentSlot known name)
    let (value, unknown, t) ← t.operand? o value
    return (⟨name, slot, value⟩, unknown, t)

def arguments? (o : CompileOptions) (t : Tables) (known : Option Template) :
    List (List Char) → Lookup Fault (List Argument × List String × Tables)
  | [] => pure ([], [], t)
  | text :: rest => do
    let (arg, unknown, t) ← t.argument? o known text
    let (args, more, t) ← t.arguments? o known rest
    return (arg :: args, unknown ++ more, t)

def argumentTexts? (args : Option (List Char)) : Option (List (List Char)) :=
  match args with
  | none => some []
  | some text => (Text.splitAtTop? ',' text).map (·.filter (!Text.isAllBlank ·))

def call? (o : CompileOptions) (t : Tables) (name : List Char) (args : Option (List Char)) :
    Lookup Fault (List Action × Tables) := do
  let (callee, known) ← .total (t.callee o (String.ofList (Text.trim name)))
  let (args, unknown, t) ← t.arguments? o known (← argumentTexts? args)
  return (notes unknown ++ [.call ⟨callee, args, t.callSites⟩],
    { t with callSites := t.callSites + 1 })

def exec? (o : CompileOptions) (t : Tables) (op : List Char) (arg : Option (List Char)) :
    Lookup Fault (List Action × Tables) := do
  let name := String.ofList (Text.trim op)
  let some table := o.operations | throw .noOperationProvider
  let some op := table.lookup? name | throw (.unknownOperation name)
  match op.arity, arg.filter (!Text.isAllBlank ·) with
  | .unary, none => throw (.operationArity name .unary)
  | .nullary, some _ => throw (.operationArity name .nullary)
  | .nullary, none => return ([.exec op none], t)
  | .unary, some text => do
    let (arg, unknown, t) ← t.operand? o text
    return (notes unknown ++ [.exec op (some arg)], t)

def debug? (o : CompileOptions) (t : Tables) (value compare : Option (List Char)) :
    Lookup Fault (List Action × Tables) := do
  let compare := compare.map fun c => String.ofList (Text.trim c)
  match value.filter (!Text.isAllBlank ·) with
  | none => return ([.debug none compare], t)
  | some text =>
    let (value, unknown, t) ← t.operand? o text
    return (notes unknown ++ [.debug (some value) compare], t)

variable {o : CompileOptions} {t : Tables}

theorem operand?_eq (text : List Char) : t.operand? o text = .total (t.operand o text) := by
  rw [operand?, operand, Lowering.ofText?_eq, Lookup.total_bind]
  rfl

theorem headerOperand?_eq (text : List Char) :
    t.headerOperand? o text = .total (t.headerOperand o text) := by
  rw [headerOperand?, headerOperand, operand?_eq, Lookup.total_bind]
  rfl

theorem write?_eq (path : List Char) : t.write? o path = .total (t.write o path) := by
  rw [write?, write, operand?_eq, Lookup.total_bind]
  rfl

theorem loopHeader?_eq (var container : List Char) :
    t.loopHeader? o var container = .total (t.loopHeader o var container) := by
  rw [loopHeader?, loopHeader, headerOperand?_eq]
  simp only [Lookup.total_bind]
  rfl

theorem set?_eq (var value : List Char) : t.set? o var value = .total (t.set o var value) := by
  rw [set?, set, operand?_eq]
  simp only [Lookup.total_bind]
  rfl

theorem argument?_eq (known : Option Template) (text : List Char) :
    t.argument? o known text = .total (t.argument o known text) := by
  unfold argument? argument
  cases Text.splitOnce '=' text with
  | none => rfl
  | some x =>
    obtain ⟨param, value⟩ := x
    dsimp only
    cases Text.isName (Text.trim param) with
    | false => rfl
    | true =>
      simp only [Bool.not_true, Bool.false_eq_true, if_false, operand?_eq, Lookup.total_bind]
      rfl

theorem arguments?_eq (known : Option Template) (texts : List (List Char)) :
    t.arguments? o known texts = .total (t.arguments o known texts) := by
  induction texts generalizing t with
  | nil => rfl
  | cons text rest ih =>
    rw [arguments?, arguments, argument?_eq]
    simp only [ih, Lookup.total_bind]
    rfl

theorem argumentTexts?_eq (args : Option (List Char)) :
    argumentTexts? args = some (argumentTexts args) := by
  cases args with
  | none => rfl
  | some text =>
    rw [argumentTexts?, Text.splitAtTop?_eq rfl]
    rfl

theorem call?_eq (name : List Char) (args : Option (List Char)) :
    t.call? o name args = .total (t.call o name args) := by
  rw [call?, call, argumentTexts?_eq]
  simp only [Lookup.liftM_some_bind, arguments?_eq, Lookup.total_bind]
  rfl

theorem exec?_eq (op : List Char) (arg : Option (List Char)) :
    t.exec? o op arg = .total (t.exec o op arg) := by
  unfold exec? exec
  dsimp only
  cases o.operations with
  | none => rfl
  | some table =>
    dsimp only
    cases table.lookup? (String.ofList (Text.trim op)) with
    | none => rfl
    | some operation =>
      dsimp only
      cases operation.arity <;> cases arg.filter (!Text.isAllBlank ·)
      case unary.some text =>
        dsimp only
        rw [operand?_eq, Lookup.total_bind]
        rfl
      all_goals rfl

theorem debug?_eq (value compare : Option (List Char)) :
    t.debug? o value compare = .total (t.debug o value compare) := by
  unfold debug? debug
  dsimp only
  cases value.filter (!Text.isAllBlank ·) with
  | none => rfl
  | some text =>
    dsimp only
    rw [operand?_eq, Lookup.total_bind]
    rfl

end TemplateEngine.Tables

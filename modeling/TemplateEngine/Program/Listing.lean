import TemplateEngine.Program.Template
import TemplateEngine.Text.Split
import TemplateEngine.Value.Text

/-! A program as text for people: one line per instruction, jumps shown as the places they lead
to. -/
namespace TemplateEngine.Program

def slotText (slots : SlotMap) (slot : SlotId) : String :=
  "$" ++ toString slot ++ ":" ++ (slots.nameOf? slot).getD "?"

def rootText (slots : SlotMap) : Root → String
  | .slot s => slotText slots s
  | .constant v => v.listing
  | .target => "this"

/-- The text of a node among `count` nodes. Every binary operation is in parentheses. -/
def nodeText (slots : SlotMap) : (count : Nat) → List Node → ExprId → String
  | count + 1, n :: older, id =>
    if id = count then
      let exprText := nodeText slots count older
      match n with
      | .const v => v.listing
      | .path p => p.text exprText (rootText slots p.root)
      | .unary op operand => op.symbol ++ exprText operand
      | .binary op left right =>
        "(" ++ exprText left ++ " " ++ op.symbol ++ " " ++ exprText right ++ ")"
    else nodeText slots count older id
  | _, _, _ => ""

def exprText (p : Program) (id : ExprId) : String :=
  nodeText p.slots p.arena.size p.arena.nodes id

def operandText (p : Program) : Operand → String
  | .constant v => "const " ++ v.listing
  | .slot s => slotText p.slots s
  | .path path => path.text p.exprText (rootText p.slots path.root)
  | .expr id => p.exprText id

/-- At least four digits. -/
def placeText (n : Nat) : String :=
  let digits := toString n
  String.ofList (List.replicate (4 - digits.length) '0') ++ digits

def calleeText (p : Program) : Callee → String
  | .known t => "static " ++ t.name
  | .named name => "named " ++ name
  | .held slot => "dynamic " ++ slotText p.slots slot

def argumentText (p : Program) (a : Argument) : String :=
  let place :=
    match a.slot with
    | some slot => "@" ++ toString slot
    | none => ""
  a.name ++ place ++ "=" ++ p.operandText a.value

def actionTexts (p : Program) : Action → String × String
  | .literal text => ("literal", Text.quote text)
  | .variable source => ("variable", p.operandText source)
  | .set target value => ("set", slotText p.slots target ++ " = " ++ p.operandText value)
  | .call c =>
    ("call", p.calleeText c.callee ++ " site=" ++ toString c.site ++ " (" ++
      ", ".intercalate (c.args.map p.argumentText) ++ ")")
  | .exec op arg => ("exec", op.name ++ "(" ++ (arg.map p.operandText).getD "" ++ ")")
  | .debug value compare =>
    ("debug", (value.map p.operandText).getD "" ++
      (compare.map fun c => " == " ++ Text.quote c).getD "")

def instrTexts (p : Program) (index : Nat) : Instr → String × String
  | .action a => p.actionTexts a
  | .branch first cond next stop =>
    (if first then "if" else "elsif", p.operandText cond ++ " next=" ++ placeText (index + next) ++
      " end=" ++ placeText (index + stop))
  | .otherwise => ("else", "")
  | .loop header stop =>
    ("for", slotText p.slots header.entry ++ " in " ++ p.operandText header.container ++
      " end=" ++ placeText (index + stop))
  | .endLoop => ("endfor", "")

/-- A line of the listing. Mnemonics take eight columns, and no line ends in a blank. -/
def instrLine (p : Program) (index : Nat) (i : Instr) : String :=
  let (mnemonic, operands) := p.instrTexts index i
  let padded := mnemonic ++ String.ofList (List.replicate (8 - mnemonic.length) ' ')
  let line := placeText index ++ " " ++ padded ++ " " ++ operands
  String.ofList (Text.trimEnd line.toList) ++ "\n"

def headLine (p : Program) : String :=
  "template " ++ p.name ++ " (" ++ toString p.params.length ++ " params: [" ++
    ", ".intercalate p.params ++ "], " ++ toString p.slots.size ++ " slots, " ++
    toString p.callSites ++ " call sites)\n"

def instrLines (p : Program) (index : Nat) : List Instr → List String
  | [] => []
  | i :: rest => p.instrLine index i :: p.instrLines (index + 1) rest

def listing (p : Program) : String :=
  p.headLine ++ String.join (p.instrLines 0 p.instrs)

end TemplateEngine.Program

import TemplateEngine.Program.Listing
import TemplateEngine.Proofs.Listing.Trees
import TemplateEngine.Proofs.References.Program

/-! Instructions with what they refer to in place: nodes as trees, templates and operations by their
names. A listing shows no more of a program than that. -/
namespace TemplateEngine

open TemplateEngine.Text (commas)

inductive OperandForm where
  | constant (v : Value)
  | slot (s : SlotId)
  | path (root : Root) (steps : List TreeStep)
  | expr (t : Tree)

inductive CalleeForm where
  | static (name : String)
  | named (name : String)
  | dynamic (slot : SlotId)

structure ArgumentForm where
  name : String
  slot : Option SlotId
  value : OperandForm

inductive ActionForm where
  | literal (text : String)
  | variable (source : OperandForm)
  | set (target : SlotId) (value : OperandForm)
  | call (callee : CalleeForm) (args : List ArgumentForm) (site : SiteId)
  | exec (operation : String) (arg : Option OperandForm)
  | debug (value : Option OperandForm) (compare : Option String)

inductive InstrForm where
  | action (a : ActionForm)
  | branch (first : Bool) (cond : OperandForm) (next stop : Nat)
  | otherwise
  | loop (container : OperandForm) (entry next : SlotId) (stop : Nat)
  | endLoop

section Form

variable (a : Arena)

def Operand.form : Operand → OperandForm
  | .constant v => .constant v
  | .slot s => .slot s
  | .path p => .path p.root (p.accesses.map (Access.tree a.tree))
  | .expr id => .expr (a.tree id)

def Callee.form : Callee → CalleeForm
  | .known t => .static t.name
  | .named name => .named name
  | .held slot => .dynamic slot

def Argument.form (arg : Argument) : ArgumentForm :=
  ⟨arg.name, arg.slot, arg.value.form a⟩

def Action.form : Action → ActionForm
  | .literal text => .literal text
  | .variable source => .variable (source.form a)
  | .set target value => .set target (value.form a)
  | .call c => .call c.callee.form (c.args.map (Argument.form a)) c.site
  | .exec op arg => .exec op.name (arg.map (Operand.form a))
  | .debug value compare => .debug (value.map (Operand.form a)) compare

def Instr.form : Instr → InstrForm
  | .action x => .action (x.form a)
  | .branch first cond next stop => .branch first (cond.form a) next stop
  | .otherwise => .otherwise
  | .loop header stop => .loop (header.container.form a) header.entry header.next stop
  | .endLoop => .endLoop

end Form

/-- An operand as a tree; whether it is in the arena does not matter any more. -/
def OperandForm.tree : OperandForm → Tree
  | .constant v => .const v
  | .slot s => .path (.slot s) []
  | .path root steps => .path root steps
  | .expr t => t

section Shown

variable (name : SlotId → String)

def OperandForm.shown : OperandForm → List Char
  | .constant v => ['c', 'o', 'n', 's', 't', ' '] ++ v.listing.toList
  | .slot s => slotShown name s
  | .path root steps => root.shown name ++ stepsShown name steps
  | .expr t => t.shown name

def CalleeForm.shown : CalleeForm → List Char
  | .static name => ['s', 't', 'a', 't', 'i', 'c', ' '] ++ name.toList
  | .named name => ['n', 'a', 'm', 'e', 'd', ' '] ++ name.toList
  | .dynamic slot => ['d', 'y', 'n', 'a', 'm', 'i', 'c', ' '] ++ slotShown name slot

def placeShown : Option SlotId → List Char
  | some slot => '@' :: (toString slot).toList
  | none => []

def ArgumentForm.shown (arg : ArgumentForm) : List Char :=
  arg.name.toList ++ (placeShown arg.slot ++ '=' :: arg.value.shown name)

def ActionForm.shown : ActionForm → String × List Char
  | .literal text => ("literal", (Text.quote text).toList)
  | .variable source => ("variable", source.shown name)
  | .set target value => ("set", slotShown name target ++ ([' ', '=', ' '] ++ value.shown name))
  | .call callee args site =>
    ("call", callee.shown name ++ ([' ', 's', 'i', 't', 'e', '='] ++ ((toString site).toList ++
      ([' ', '('] ++ (commas (args.map (ArgumentForm.shown name)) ++ [')'])))))
  | .exec operation arg =>
    ("exec", operation.toList ++ '(' :: ((arg.map (OperandForm.shown name)).getD [] ++ [')']))
  | .debug value compare =>
    ("debug", (value.map (OperandForm.shown name)).getD [] ++
      (compare.map fun c => [' ', '=', '=', ' '] ++ (Text.quote c).toList).getD [])

/-- The mnemonic and the operands of an instruction at a place of the program. -/
def InstrForm.shown (place : Nat) : InstrForm → String × List Char
  | .action a => a.shown name
  | .branch first cond next stop =>
    (if first then "if" else "elsif", cond.shown name ++
      ([' ', 'n', 'e', 'x', 't', '='] ++ ((Program.placeText (place + next)).toList ++
        ([' ', 'e', 'n', 'd', '='] ++ (Program.placeText (place + stop)).toList))))
  | .otherwise => ("else", [])
  | .loop container entry _ stop =>
    ("for", slotShown name entry ++ ([' ', 'i', 'n', ' '] ++ (container.shown name ++
      ([' ', 'e', 'n', 'd', '='] ++ (Program.placeText (place + stop)).toList))))
  | .endLoop => ("endfor", [])

end Shown

/-! The listing of a program shows the forms of its instructions. -/

def SlotMap.shownName (m : SlotMap) (slot : SlotId) : String :=
  (m.nameOf? slot).getD "?"

theorem shown_ofPath (name : SlotId → String) (root : Root) (steps : List TreeStep) :
    (Tree.ofPath root steps).shown name = root.shown name ++ stepsShown name steps := by
  unfold Tree.ofPath
  split
  · simp [Tree.shown, Root.shown, stepsShown]
  · rfl

section Arena

variable {name : SlotId → String} {slots nodes : Nat} {text : ExprId → String}
  {tree : ExprId → Tree}
  (htext : ∀ id < nodes, (text id).toList = (tree id).shown name)
include htext

theorem shown_access {access : Access} (h : access.Within nodes) :
    (access.text text).toList = (access.tree tree).shown name := by
  cases access with
  | call x args =>
    have hargs : args.map (fun id => (text id).toList) = (args.map tree).map (Tree.shown name) := by
      rw [List.map_map]
      exact List.map_congr_left fun id hid => htext id (h id hid)
    rw [Access.text, Access.tree, TreeStep.shown, argumentsShown_eq_map, ← hargs,
      ← Text.toList_commas]
    simp
  | _ => simp [Access.text, Access.tree, TreeStep.shown]

theorem shown_accesses {accesses : List Access} (h : ∀ access ∈ accesses, access.Within nodes)
    (root : String) (r : Root) : (Path.text text root ⟨r, accesses⟩).toList =
      root.toList ++ stepsShown name (accesses.map (Access.tree tree)) := by
  unfold Path.text
  dsimp only
  induction accesses generalizing root with
  | nil => simp [stepsShown]
  | cons access accesses ih =>
    obtain ⟨haccess, hrest⟩ := List.forall_mem_cons.mp h
    rw [List.foldl_cons, ih hrest, List.map_cons, stepsShown, String.toList_append,
      shown_access htext haccess, List.append_assoc]

end Arena

namespace Program

theorem toList_slotText (slots : SlotMap) (slot : SlotId) :
    (slotText slots slot).toList = slotShown slots.shownName slot := by
  simp [slotText, slotShown, SlotMap.shownName]

theorem toList_rootText (slots : SlotMap) (root : Root) :
    (rootText slots root).toList = root.shown slots.shownName := by
  cases root with
  | slot s => exact toList_slotText slots s
  | constant v => rfl
  | target => simp [rootText, Root.shown]

/-- The text of a node is that of its tree, as long as nodes refer to smaller ones only. -/
theorem toList_nodeText (slots : SlotMap) (count : Nat) (nodes : List Node)
    (h : ∀ newer n older, nodes = newer ++ n :: older → n.Within count older.length) {id : Nat}
    (hid : id < nodes.length) : (nodeText slots nodes.length nodes id).toList =
      (Arena.treeAmong nodes.length nodes id).shown slots.shownName := by
  induction nodes generalizing id with
  | nil => cases hid
  | cons n older ih =>
    have hsmaller (id : Nat) (hid : id < older.length) :=
      ih (fun newer n' older' heq => h (n :: newer) n' older' (by simp [heq])) hid
    rw [List.length_cons, nodeText, Arena.treeAmong]
    by_cases hlast : id = older.length
    · have hn := h [] n older rfl
      rw [if_pos hlast, if_pos hlast]
      cases n with
      | const v => rfl
      | path p =>
        rw [Node.tree, Path.tree, shown_ofPath]
        exact (shown_accesses hsmaller hn.accesses _ p.root).trans
          (by rw [toList_rootText])
      | unary op operand =>
        rw [Node.tree, Tree.shown, String.toList_append, hsmaller operand hn]
      | binary op left right =>
        simp [Node.tree, Tree.shown, hsmaller left hn.1, hsmaller right hn.2]
    · rw [if_neg hlast, if_neg hlast]
      exact hsmaller id (by rw [List.length_cons] at hid; omega)

section Grounded

variable {p : Program} {slots : Nat} (hground : p.arena.Grounded slots)
include hground

theorem toList_exprText {id : Nat} (hid : id < p.arena.size) :
    (p.exprText id).toList = (p.arena.tree id).shown p.slots.shownName := by
  refine toList_nodeText p.slots slots p.arena.nodes ?_ hid
  intro newer n older heq
  refine hground (n := n) ?_
  rw [Arena.node?, heq, List.reverse_append, List.reverse_cons, List.append_assoc,
    List.getElem?_append_right (by simp)]
  simp

theorem toList_operandText {o : Operand} (h : o.Within slots p.arena.size) :
    (p.operandText o).toList = (o.form p.arena).shown p.slots.shownName := by
  cases o with
  | constant v => simp [operandText, Operand.form, OperandForm.shown]
  | slot s => exact toList_slotText p.slots s
  | path path =>
    exact (shown_accesses (fun _ => toList_exprText hground) h.accesses _ path.root).trans
      (by rw [toList_rootText]; rfl)
  | expr id => exact toList_exprText hground h

theorem toList_argumentText {arg : Argument} (h : arg.value.Within slots p.arena.size) :
    (p.argumentText arg).toList = (arg.form p.arena).shown p.slots.shownName := by
  have hvalue := toList_operandText hground h
  unfold argumentText ArgumentForm.shown Argument.form placeShown
  cases arg.slot <;> simp [hvalue]

omit hground in
theorem toList_calleeText (callee : Callee) :
    (p.calleeText callee).toList = callee.form.shown p.slots.shownName := by
  match callee with
  | .known t => exact String.toList_append
  | .named name => exact String.toList_append
  | .held slot =>
    rw [calleeText, String.toList_append, toList_slotText]
    rfl

theorem actionTexts_eq {a : Action} (h : ∀ o ∈ a.operands, o.Within slots p.arena.size) :
    (p.actionTexts a).map id String.toList = (a.form p.arena).shown p.slots.shownName := by
  have htext (o : Operand) (ho : o ∈ a.operands) := toList_operandText hground (h o ho)
  match a with
  | .literal text => rfl
  | .variable source => exact Prod.ext rfl (htext source (by simp [Action.operands]))
  | .set target value =>
    have hvalue := htext value (by simp [Action.operands])
    simp [actionTexts, Action.form, ActionForm.shown, toList_slotText, hvalue]
  | .call c =>
    have hargs : c.args.map (fun arg => (p.argumentText arg).toList) =
        (c.args.map (Argument.form p.arena)).map (ArgumentForm.shown p.slots.shownName) := by
      rw [List.map_map]
      exact List.map_congr_left fun arg harg =>
        toList_argumentText hground (h arg.value (List.mem_map_of_mem harg))
    rw [Action.form, ActionForm.shown, ← hargs, ← Text.toList_commas]
    simp [actionTexts, toList_calleeText]
  | .exec op none => simp [actionTexts, Action.form, ActionForm.shown]
  | .exec op (some arg) =>
    have harg := htext arg (by simp [Action.operands])
    simp [actionTexts, Action.form, ActionForm.shown, harg]
  | .debug value compare =>
    have hcompare : ((compare.map fun c => " == " ++ Text.quote c).getD "").toList =
        (compare.map fun c => [' ', '=', '=', ' '] ++ (Text.quote c).toList).getD [] := by
      cases compare <;> simp
    rw [Action.form, ActionForm.shown, ← hcompare]
    cases value with
    | none => simp [actionTexts]
    | some value =>
      have hvalue := htext value (by simp [Action.operands])
      simp [actionTexts, hvalue]

theorem instrTexts_eq {i : Instr} (h : ∀ o ∈ i.operands, o.Within slots p.arena.size)
    (place : Nat) : (p.instrTexts place i).map id String.toList =
      (i.form p.arena).shown p.slots.shownName place := by
  cases i with
  | action a => exact actionTexts_eq hground h
  | branch first cond next stop =>
    have hcond := toList_operandText hground (h cond (by simp [Instr.operands]))
    simp [instrTexts, Instr.form, InstrForm.shown, hcond]
  | loop header stop =>
    have hcontainer := toList_operandText hground (h header.container (by simp [Instr.operands]))
    simp [instrTexts, Instr.form, InstrForm.shown, toList_slotText, hcontainer]
  | otherwise => rfl
  | endLoop => rfl

end Grounded

end Program

end TemplateEngine

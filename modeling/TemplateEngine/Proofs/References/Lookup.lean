import TemplateEngine.Proofs.References.Program
import TemplateEngine.Run.Resolve

/-! Evaluating an operand by looking up its nodes one by one. A lookup of a node that is not there
gives nothing, and neither does an evaluation that goes on for too long. In a compiled template both
never happen. -/
namespace TemplateEngine

/-- An evaluation that may give nothing at all. -/
abbrev Lookup (ε α : Type) := ExceptT ε Option α

namespace Lookup

variable {ε α β : Type}

def total (x : Except ε α) : Lookup ε α :=
  ExceptT.mk (some x)

theorem total_bind (x : Except ε α) (f : α → Except ε β) :
    total (x >>= f) = (total x >>= fun a => total (f a)) := by
  cases x <;> rfl

end Lookup

def Access.text? (exprText : ExprId → Option String) : Access → Option String
  | .field name => some ("." ++ name)
  | .index i => some ("[" ++ intText i ++ "]")
  | .key k => some ("[" ++ Text.quote k ++ "]")
  | .call name args => do
    return "." ++ name ++ "(" ++ ", ".intercalate (← args.mapM exprText) ++ ")"

def Path.text? (exprText : ExprId → Option String) (root : String) (p : Path) : Option String :=
  p.accesses.foldlM (fun text a => do return text ++ (← a.text? exprText)) root

namespace Scope

variable (s : Scope)

def textOf? (exprText : ExprId → Option String) : Node → Option String
  | .const v => some (literalText v)
  | .path p => p.text? exprText (s.rootText p.root)
  | .unary op operand => do return op.symbol ++ (← exprText operand)
  | .binary op left right => do
    return (← exprText left) ++ " " ++ op.symbol ++ " " ++ (← exprText right)

/-- The text of a node, with at most `fuel` lookups one inside the other. -/
def exprText? : (fuel : Nat) → ExprId → Option String
  | 0, _ => none
  | fuel + 1, id => do s.textOf? (exprText? fuel) (← s.arena.node? id)

def access? (eval : ExprId → Lookup DataError Value) (v : Value) : Access → Lookup Failure Value
  | .field name => .total (fieldOf s.host v name)
  | .index i => .total (elementAt s.host v i)
  | .key k => .total (entryAt s.host v k)
  | .call name args =>
    ((args.mapM eval).adapt DataError.failure) >>= fun args =>
      .total (Methods.call s.host v name args)

def path? (eval : ExprId → Lookup DataError Value) (exprText : ExprId → Option String)
    (p : Path) : Lookup DataError Value := ExceptT.mk do
  match ← (p.accesses.foldlM (s.access? eval) (s.root p.root)).run with
  | .ok v => return .ok v
  | .error failure => return .error ⟨← p.text? exprText (s.rootText p.root), failure⟩

def blame? (text? : Option String) : Except Failure Value → Lookup DataError Value
  | .ok v => pure v
  | .error failure => do throw ⟨← text?, failure⟩

def valueOf? (eval : ExprId → Lookup DataError Value) (exprText : ExprId → Option String)
    (n : Node) : Lookup DataError Value :=
  let blame := blame? (s.textOf? exprText n)
  match n with
  | .const v => pure v
  | .path p => s.path? eval exprText p
  | .unary op operand => do blame (Operators.unary op (← eval operand))
  | .binary .and left right => do
    if (← eval left).isTruthy then return .bool (← eval right).isTruthy else return .bool false
  | .binary .or left right => do
    if (← eval left).isTruthy then return .bool true else return .bool (← eval right).isTruthy
  | .binary op left right => do
    let a ← eval left
    let b ← eval right
    blame (Operators.binary op a b)

/-- The value of a node, with at most `fuel` lookups one inside the other. -/
def expr? : (fuel : Nat) → ExprId → Lookup DataError Value
  | 0, _ => ExceptT.mk none
  | fuel + 1, id => do s.valueOf? (expr? fuel) (s.exprText? fuel) (← s.arena.node? id)

def operandText? (fuel : Nat) : Operand → Option String
  | .constant v => some (literalText v)
  | .slot id => some (s.slotName id)
  | .path p => p.text? (s.exprText? fuel) (s.rootText p.root)
  | .expr id => s.exprText? fuel id

def resolve? (fuel : Nat) : Operand → Lookup DataError Value
  | .constant v => pure v
  | .slot id => pure (s.slot id)
  | .path p => s.path? (s.expr? fuel) (s.exprText? fuel) p
  | .expr id => s.expr? fuel id

/-! With answers for all smaller nodes each step of the evaluation gives an answer. -/

section Texts

variable {s} {nodes slots : Nat} {text? : ExprId → Option String} {text : ExprId → String}
  (htext : ∀ id < nodes, text? id = some (text id))
include htext

private theorem mapM_text {ids : List ExprId} (h : ∀ id ∈ ids, id < nodes) :
    ids.mapM text? = some (ids.map text) := by
  induction ids with
  | nil => rfl
  | cons id ids ih =>
    rw [List.forall_mem_cons] at h
    rw [List.mapM_cons, htext id h.1, ih h.2]
    rfl

theorem accessText?_eq {a : Access} (h : a.Within nodes) : a.text? text? = some (a.text text) := by
  cases a with
  | call name args =>
    rw [Access.text?, mapM_text htext h]
    rfl
  | field name => rfl
  | index i => rfl
  | key k => rfl

theorem pathText?_eq {p : Path} (h : p.Within slots nodes) (root : String) :
    p.text? text? root = some (p.text text root) := by
  obtain ⟨r, accesses⟩ := p
  have haccesses : ∀ a ∈ accesses, a.Within nodes := h.accesses
  clear h
  unfold Path.text? Path.text
  dsimp only
  induction accesses generalizing root with
  | nil => rfl
  | cons a accesses ih =>
    rw [List.forall_mem_cons] at haccesses
    rw [List.foldlM_cons, accessText?_eq htext haccesses.1]
    exact ih _ haccesses.2

theorem textOf?_eq {n : Node} (h : n.Within slots nodes) :
    s.textOf? text? n = some (s.textOf text n) := by
  cases n with
  | const v => rfl
  | path p => exact pathText?_eq htext h _
  | unary op operand =>
    rw [textOf?, htext operand h]
    rfl
  | binary op left right =>
    rw [textOf?, htext left h.1, htext right h.2]
    rfl

end Texts

section Values

variable {s} {nodes slots : Nat} {eval? : ExprId → Lookup DataError Value}
  {eval : ExprId → Except DataError Value} (heval : ∀ id < nodes, eval? id = .total (eval id))
include heval

private theorem mapM_eval {ids : List ExprId} (h : ∀ id ∈ ids, id < nodes) :
    ids.mapM eval? = .total (ids.mapM eval) := by
  induction ids with
  | nil => rfl
  | cons id ids ih =>
    rw [List.forall_mem_cons] at h
    rw [List.mapM_cons, List.mapM_cons, heval id h.1, ih h.2]
    simp only [Lookup.total_bind]
    rfl

theorem access?_eq {a : Access} (h : a.Within nodes) (v : Value) :
    s.access? eval? v a = .total (s.access eval v a) := by
  cases a with
  | call name args =>
    rw [access?, access, mapM_eval heval h]
    cases args.mapM eval <;> rfl
  | field name => rfl
  | index i => rfl
  | key k => rfl

private theorem foldlM_access {accesses : List Access} (h : ∀ a ∈ accesses, a.Within nodes)
    (v : Value) :
    accesses.foldlM (s.access? eval?) v = .total (accesses.foldlM (s.access eval) v) := by
  induction accesses generalizing v with
  | nil => rfl
  | cons a accesses ih =>
    rw [List.forall_mem_cons] at h
    rw [List.foldlM_cons, List.foldlM_cons, access?_eq heval h.1, Lookup.total_bind]
    congr 1
    funext w
    exact ih h.2 w

variable {text? : ExprId → Option String} {text : ExprId → String}

theorem path?_eq (htext : ∀ id < nodes, text? id = some (text id)) {p : Path}
    (h : p.Within slots nodes) : s.path? eval? text? p = .total (s.path eval text p) := by
  unfold path? path
  rw [foldlM_access heval h.accesses]
  cases p.accesses.foldlM (s.access eval) (s.root p.root) with
  | ok v => rfl
  | error failure =>
    simp only [pathText?_eq htext h]
    rfl

theorem valueOf?_eq (htext : ∀ id < nodes, text? id = some (text id)) {n : Node}
    (h : n.Within slots nodes) : s.valueOf? eval? text? n = .total (s.valueOf eval text n) := by
  have hblame (r : Except Failure Value) :
      blame? (s.textOf? text? n) r = .total (blame (s.textOf text n) r) := by
    rw [textOf?_eq htext h]
    cases r <;> rfl
  cases n with
  | const v => rfl
  | path p => exact path?_eq heval htext h
  | unary op operand =>
    simp only [valueOf?, valueOf, heval operand h, Lookup.total_bind, hblame]
  | binary op left right =>
    cases op with
    | and | or =>
      simp only [valueOf?, valueOf, heval left h.1, heval right h.2, Lookup.total_bind]
      congr 1
      funext a
      cases a.isTruthy <;> cases eval right <;> rfl
    | _ =>
      simp only [valueOf?, valueOf, heval left h.1, heval right h.2, Lookup.total_bind, hblame]

end Values

/-! Nodes that were allocated later do not matter for a node. -/

private theorem nodeText_append (newer older : List Node) {id : Nat} (h : id < older.length) :
    s.nodeText (newer ++ older).length (newer ++ older) id = s.nodeText older.length older id := by
  induction newer with
  | nil => rfl
  | cons n newer ih =>
    have hne : id ≠ (newer ++ older).length := by
      rw [List.length_append]
      omega
    rw [List.cons_append, List.length_cons, nodeText, if_neg hne, ih]

private theorem node_append (newer older : List Node) {id : Nat} (h : id < older.length) :
    s.node (newer ++ older).length (newer ++ older) id = s.node older.length older id := by
  induction newer with
  | nil => rfl
  | cons n newer ih =>
    have hne : id ≠ (newer ++ older).length := by
      rw [List.length_append]
      omega
    rw [List.cons_append, List.length_cons, node, if_neg hne, ih]

private theorem exists_split_of_node? {a : Arena} {id : Nat} {n : Node} (h : a.node? id = some n) :
    ∃ newer older, a.nodes = newer ++ n :: older ∧ older.length = id := by
  obtain ⟨hlt, hn⟩ := List.getElem?_eq_some_iff.mp h
  refine ⟨(a.nodes.reverse.drop (id + 1)).reverse, (a.nodes.reverse.take id).reverse, ?_, ?_⟩
  · have hsplit :
        a.nodes.reverse = a.nodes.reverse.take id ++ n :: a.nodes.reverse.drop (id + 1) := by
      rw [← hn, ← List.drop_eq_getElem_cons, List.take_append_drop]
    rw [← List.reverse_inj, List.reverse_append, List.reverse_cons, List.reverse_reverse,
      List.reverse_reverse, List.append_assoc]
    exact hsplit
  · rw [List.length_reverse, List.length_take, Nat.min_eq_left (Nat.le_of_lt hlt)]

section Split

variable {s} {newer older : List Node} {n : Node} (hnodes : s.arena.nodes = newer ++ n :: older)
include hnodes

private theorem exprText_smaller {id : Nat} (h : id < older.length) :
    s.exprText id = s.nodeText older.length older id := by
  rw [exprText, Arena.size, hnodes, List.append_cons, nodeText_append s _ _ h]

private theorem expr_smaller {id : Nat} (h : id < older.length) :
    s.expr id = s.node older.length older id := by
  rw [expr, Arena.size, hnodes, List.append_cons, node_append s _ _ h]

private theorem exprText_self :
    s.exprText older.length = s.textOf (s.nodeText older.length older) n := by
  rw [exprText, Arena.size, hnodes, nodeText_append s newer (n :: older) (Nat.lt_succ_self _),
    List.length_cons, nodeText, if_pos rfl]

private theorem expr_self :
    s.expr older.length =
      s.valueOf (s.node older.length older) (s.nodeText older.length older) n := by
  rw [expr, Arena.size, hnodes, node_append s newer (n :: older) (Nat.lt_succ_self _),
    List.length_cons, node, if_pos rfl]

end Split

/-! The value and the text of a node are made of those of the nodes that it refers to, wherever in
the arena it is. -/

section Node

variable {s} {slots : Nat} {newer older : List Node} {n : Node}
  (hnodes : s.arena.nodes = newer ++ n :: older) (hn : n.Within slots older.length)
include hnodes hn

theorem exprText_eq_textOf : s.exprText older.length = s.textOf s.exprText n := by
  have hsmaller : ∀ id < older.length,
      some (s.exprText id) = some (s.nodeText older.length older id) := by
    intro id hlt
    rw [exprText_smaller hnodes hlt]
  rw [exprText_self hnodes]
  apply Option.some.inj
  rw [← textOf?_eq hsmaller hn, ← textOf?_eq (fun _ _ => rfl) hn]

theorem expr_eq_valueOf : s.expr older.length = s.valueOf s.expr s.exprText n := by
  have htext : ∀ id < older.length,
      some (s.exprText id) = some (s.nodeText older.length older id) := by
    intro id hlt
    rw [exprText_smaller hnodes hlt]
  have hvalue : ∀ id < older.length,
      Lookup.total (s.expr id) = .total (s.node older.length older id) := by
    intro id hlt
    rw [expr_smaller hnodes hlt]
  rw [expr_self hnodes]
  apply Option.some.inj
  exact (valueOf?_eq hvalue htext hn).symm.trans (valueOf?_eq (fun _ _ => rfl) (fun _ _ => rfl) hn)

end Node

section Fuel

variable {s} {slots fuel : Nat} (hground : s.arena.Grounded slots)
include hground

theorem exprText?_eq {id : Nat} (hid : id < s.arena.size) (hfuel : id < fuel) :
    s.exprText? fuel id = some (s.exprText id) := by
  induction fuel generalizing id with
  | zero => omega
  | succ fuel ih =>
    obtain ⟨n, hn⟩ := s.arena.exists_node? hid
    obtain ⟨newer, older, hnodes, rfl⟩ := exists_split_of_node? hn
    have hsmaller : ∀ id < older.length,
        s.exprText? fuel id = some (s.nodeText older.length older id) := by
      intro id hlt
      rw [ih (by omega) (by omega), exprText_smaller hnodes hlt]
    rw [exprText?, hn, exprText_self hnodes]
    exact textOf?_eq hsmaller (hground hn)

theorem expr?_eq {id : Nat} (hid : id < s.arena.size) (hfuel : id < fuel) :
    s.expr? fuel id = .total (s.expr id) := by
  induction fuel generalizing id with
  | zero => omega
  | succ fuel ih =>
    obtain ⟨n, hn⟩ := s.arena.exists_node? hid
    obtain ⟨newer, older, hnodes, rfl⟩ := exists_split_of_node? hn
    have htext : ∀ id < older.length,
        s.exprText? fuel id = some (s.nodeText older.length older id) := by
      intro id hlt
      rw [exprText?_eq hground (by omega) (by omega), exprText_smaller hnodes hlt]
    have hsmaller : ∀ id < older.length,
        s.expr? fuel id = .total (s.node older.length older id) := by
      intro id hlt
      rw [ih (by omega) (by omega), expr_smaller hnodes hlt]
    rw [expr?, hn, expr_self hnodes]
    exact valueOf?_eq hsmaller htext (hground hn)

variable {o : Operand} (ho : o.Within slots s.arena.size) (hfuel : s.arena.size ≤ fuel)
include ho hfuel

theorem resolve?_eq : s.resolve? fuel o = .total (s.resolve o) := by
  have heval (id : Nat) (hid : id < s.arena.size) : s.expr? fuel id = .total (s.expr id) :=
    expr?_eq hground hid (Nat.lt_of_lt_of_le hid hfuel)
  have htext (id : Nat) (hid : id < s.arena.size) : s.exprText? fuel id = some (s.exprText id) :=
    exprText?_eq hground hid (Nat.lt_of_lt_of_le hid hfuel)
  cases o with
  | constant v => rfl
  | slot id => rfl
  | path p => exact path?_eq heval htext ho
  | expr id => exact heval id ho

theorem operandText?_eq : s.operandText? fuel o = some (s.operandText o) := by
  have htext (id : Nat) (hid : id < s.arena.size) : s.exprText? fuel id = some (s.exprText id) :=
    exprText?_eq hground hid (Nat.lt_of_lt_of_le hid hfuel)
  cases o with
  | constant v => rfl
  | slot id => rfl
  | path p => exact pathText?_eq htext ho _
  | expr id => exact htext id ho

end Fuel

end Scope

/-- A compiled program refers only to what is there. So its operands can be evaluated by looking up
nodes without a check: as many lookups one inside the other as there are nodes are enough, and none
of them is of a node that is not there. -/
theorem references_of_compile {name : String} {source : List Char} {o : CompileOptions}
    {p : Program} (h : compile name source o = .ok p) :
    p.WellReferenced o.known ∧
      ∀ s : Scope, s.arena = p.arena → ∀ i ∈ p.instrs, ∀ op ∈ i.operands,
        ∀ fuel, p.arena.size ≤ fuel →
          s.resolve? fuel op = .total (s.resolve op) ∧
            s.operandText? fuel op = some (s.operandText op) := by
  have hrefs := wellReferenced_of_compile h
  refine ⟨hrefs, fun s hs i hi op hop fuel hfuel => ?_⟩
  have hwithin := (hrefs.instrs i hi).operands op hop
  have hground : p.arena.Grounded p.slots.size := hrefs.nodes
  rw [← hs] at hwithin hground hfuel
  exact ⟨Scope.resolve?_eq hground hwithin hfuel, Scope.operandText?_eq hground hwithin hfuel⟩

/-- A call with a slot that is known beforehand, and a method call in an expression. -/
theorem references_of_compile_call :
    let source := "<:set:y=x.at(x + 1) || other><:for:e:y><:call:u:a=!e,b=y><.for>".toList
    let u : Template :=
      { name := "u", paramCount := 2, instrs := [], arena := {}, slots := { names := ["a", "b"] },
        callSites := 0, registry := none, operations := none, id := 0 }
    let o : CompileOptions := { params := ["x"], known := { entries := [("u", u)] } }
    ∃ p, compile "t" source o = .ok p ∧ p.WellReferenced o.known ∧
      ∀ s : Scope, s.arena = p.arena → ∀ i ∈ p.instrs, ∀ op ∈ i.operands,
        s.resolve? p.arena.size op = .total (s.resolve op) := by
  intro source u o
  obtain ⟨p, hp⟩ : ∃ p, compile "t" source o = .ok p := exists_of_isOk (by decide +kernel)
  obtain ⟨hrefs, hresolve⟩ := references_of_compile hp
  exact ⟨p, hp, hrefs, fun s hs i hi op hop => (hresolve s hs i hi op hop _ (Nat.le_refl _)).1⟩

end TemplateEngine

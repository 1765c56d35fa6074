import TemplateEngine.Proofs.Meaning.Lowered
import TemplateEngine.Proofs.Syntax.Blanks

/-! Operands as trees whose names are resolved. A compiled operand is read back from the arena as
the tree that it was lowered from, with a slot or a constant in the place of each name. -/
namespace TemplateEngine

mutual

inductive Tree where
  | const (v : Value)
  | path (root : Root) (steps : List TreeStep)
  | unary (op : Expr.UnaryOp) (operand : Tree)
  | binary (op : Expr.BinaryOp) (left right : Tree)

inductive TreeStep where
  | field (name : String)
  | index (i : Int64)
  | key (k : String)
  | call (name : String) (args : List Tree)

end

/-- A path that ends at the constant where it starts is that constant. -/
def Tree.ofPath : Root → List TreeStep → Tree
  | .constant v, [] => .const v
  | root, steps => .path root steps

namespace Expr

section Resolved

variable (root : Head → Option Root)

mutual

/-- The tree with its names resolved. What starts from an unknown name is null. -/
def Ast.tree : Ast → Tree
  | .const v => .const v
  | .path head steps =>
    match root head with
    | some r => .ofPath r (stepsTree steps)
    | none => .const .null
  | .unary op operand => .unary op operand.tree
  | .binary op left right => .binary op left.tree right.tree

def Step.tree : Step → TreeStep
  | .field name => .field name
  | .index i => .index i
  | .key k => .key k
  | .call name args => .call name (argumentsTree args)

def stepsTree : List Step → List TreeStep
  | [] => []
  | step :: rest => step.tree :: stepsTree rest

def argumentsTree : List Ast → List Tree
  | [] => []
  | arg :: rest => arg.tree :: argumentsTree rest

end

mutual

/-- Whether all names of a tree are known. Behind an unknown name nothing is looked at. -/
def Ast.bound : Ast → Bool
  | .const _ => true
  | .path head steps => (root head).isSome && stepsBound steps
  | .unary _ operand => operand.bound
  | .binary _ left right => left.bound && right.bound

def Step.bound : Step → Bool
  | .call _ args => argumentsBound args
  | .field _ | .index _ | .key _ => true

def stepsBound : List Step → Bool
  | [] => true
  | step :: rest => step.bound && stepsBound rest

def argumentsBound : List Ast → Bool
  | [] => true
  | arg :: rest => arg.bound && argumentsBound rest

end

end Resolved

section Unknown

variable (names : Names) (operand : List Char)

mutual

theorem Ast.bound_iff (e : Ast) : e.bound names.root? ↔ e.unknown names operand = [] := by
  match e with
  | .const v => simp [Ast.bound, Ast.unknown]
  | .path head steps =>
    cases hroot : names.root? head with
    | some r => simp [Ast.bound, Ast.unknown, hroot, stepsBound_iff steps]
    | none =>
      cases head with
      | name s => simp [Ast.bound, Ast.unknown, hroot]
      | this => cases hroot
      | literal v => cases hroot
  | .unary op inner => simpa [Ast.bound, Ast.unknown] using inner.bound_iff
  | .binary op left right =>
    simp [Ast.bound, Ast.unknown, left.bound_iff, right.bound_iff]

theorem Step.bound_iff (step : Step) :
    step.bound names.root? ↔ step.unknown names operand = [] := by
  match step with
  | .field name | .index i | .key k => simp [Step.bound, Step.unknown]
  | .call name args => simpa [Step.bound, Step.unknown] using argumentsBound_iff args

theorem stepsBound_iff (steps : List Step) :
    stepsBound names.root? steps ↔ stepsUnknown names operand steps = [] := by
  match steps with
  | [] => simp [stepsBound, stepsUnknown]
  | step :: rest => simp [stepsBound, stepsUnknown, step.bound_iff, stepsBound_iff rest]

theorem argumentsBound_iff (args : List Ast) :
    argumentsBound names.root? args ↔ argumentsUnknown names operand args = [] := by
  match args with
  | [] => simp [argumentsBound, argumentsUnknown]
  | arg :: rest =>
    simp [argumentsBound, argumentsUnknown, arg.bound_iff, argumentsBound_iff rest]

end

end Unknown

end Expr

/-! Reading back. -/

def Access.tree (tree : ExprId → Tree) : Access → TreeStep
  | .field name => .field name
  | .index i => .index i
  | .key k => .key k
  | .call name args => .call name (args.map tree)

def Path.tree (tree : ExprId → Tree) (p : Path) : Tree :=
  .ofPath p.root (p.accesses.map (Access.tree tree))

def Node.tree (tree : ExprId → Tree) : Node → Tree
  | .const v => .const v
  | .path p => p.tree tree
  | .unary op operand => .unary op (tree operand)
  | .binary op left right => .binary op (tree left) (tree right)

namespace Arena

/-- The tree of a node among `count` nodes, the newest of which comes first. -/
def treeAmong : (count : Nat) → List Node → ExprId → Tree
  | count + 1, n :: older, id =>
    if id = count then n.tree (treeAmong count older) else treeAmong count older id
  | _, _, _ => .const .null

def tree (a : Arena) (id : ExprId) : Tree :=
  treeAmong a.size a.nodes id

theorem treeAmong_append (newer older : List Node) {id : Nat} (h : id < older.length) :
    treeAmong (newer ++ older).length (newer ++ older) id = treeAmong older.length older id := by
  induction newer with
  | nil => rfl
  | cons n newer ih =>
    have hne : id ≠ (newer ++ older).length := by
      rw [List.length_append]
      omega
    rw [List.cons_append, List.length_cons, treeAmong, if_neg hne, ih]

/-- A node that was allocated is read back from the nodes that were there before it. -/
theorem tree_of_suffix {a a' : Arena} {n : Node} (h : n :: a.nodes <:+ a'.nodes) :
    a'.tree a.size = n.tree a.tree := by
  obtain ⟨newer, hnodes⟩ := h
  have hlt : a.nodes.length < (n :: a.nodes).length := Nat.lt_succ_self _
  rw [tree, size, size, ← hnodes, treeAmong_append newer _ hlt, List.length_cons, treeAmong,
    if_pos rfl]
  rfl

end Arena

def Operand.tree (a : Arena) : Operand → Tree
  | .constant v => .const v
  | .slot s => .path (.slot s) []
  | .path p => p.tree a.tree
  | .expr id => a.tree id

namespace Lowering

open TemplateEngine.Expr (Ast Step stepsTree argumentsTree stepsUnknown argumentsUnknown)

/-- From the arena on, and from every arena that it grows into, `r` is read back as `t`. -/
def Reads {α β : Type} (read : Arena → α → β) (t : β) (a : Arena) (r : α) : Prop :=
  ∀ a' : Arena, a.nodes <:+ a'.nodes → read a' r = t

theorem reads_alloc {base : Arena} {n : Node} {t : Tree}
    (h : ∀ a : Arena, base.nodes <:+ a.nodes → n.tree a.tree = t) :
    Gives base [] (alloc n) (Reads Arena.tree t) := by
  intro st hst
  refine ⟨List.suffix_cons _ _, (List.append_nil _).symm, fun a' ha' => ?_⟩
  exact (Arena.tree_of_suffix ha').trans (h st.arena hst)

section

variable (names : Names) (operand : List Char)

mutual

theorem reads_expr {base : Arena} (e : Ast) :
    Gives base (e.unknown names operand) (expr names operand e)
      (Reads Arena.tree (e.tree names.root?)) := by
  match e with
  | .const v =>
    rw [expr, Ast.unknown]
    exact reads_alloc fun _ _ => rfl
  | .path head steps =>
    cases hroot : names.root? head with
    | none =>
      rw [expr, ← List.append_nil ((Ast.path head steps).unknown names operand)]
      apply (gives_root_of_unknown names operand hroot steps).bind
      rintro _ a _ rfl
      exact reads_alloc fun _ _ => by rw [Ast.tree, hroot]; rfl
    | some r =>
      rw [expr, root_of_root? names operand hroot, pure_bind, unknown_of_root? names operand hroot,
        ← List.append_nil (stepsUnknown names operand steps)]
      apply (reads_accesses steps).bind
      intro accesses a _ haccesses
      refine reads_alloc fun a' ha' => ?_
      have hsteps : accesses.map (Access.tree a'.tree) = stepsTree names.root? steps :=
        haccesses a' ha'
      rw [Node.tree, Path.tree, hsteps, Ast.tree, hroot]
  | .unary op inner =>
    rw [expr, Ast.unknown, ← List.append_nil (inner.unknown names operand)]
    apply (reads_expr inner).bind
    intro id a _ hid
    refine reads_alloc fun a' ha' => ?_
    rw [Node.tree, hid a' ha', Ast.tree]
  | .binary op left right =>
    rw [expr, Ast.unknown, ← List.append_nil (right.unknown names operand)]
    apply (reads_expr left).bind
    intro id a _ hid
    apply (reads_expr right).bind
    intro id' a' ha' hid'
    refine reads_alloc fun a'' ha'' => ?_
    rw [Node.tree, hid a'' (ha'.trans ha''), hid' a'' ha'', Ast.tree]

theorem reads_access {base : Arena} (step : Step) :
    Gives base (step.unknown names operand) (access names operand step)
      (Reads (fun a r => r.tree a.tree) (step.tree names.root?)) := by
  match step with
  | .field name | .index i | .key k => exact .pure fun _ _ _ _ => rfl
  | .call name args =>
    rw [access, Step.unknown]
    refine (reads_arguments args).map fun ids a _ hids a' ha' => ?_
    have hargs : ids.map a'.tree = argumentsTree names.root? args := hids a' ha'
    dsimp only
    rw [Access.tree, hargs, Step.tree]

theorem reads_accesses {base : Arena} (steps : List Step) :
    Gives base (stepsUnknown names operand steps) (accesses names operand steps)
      (Reads (fun a rs => rs.map (Access.tree a.tree)) (stepsTree names.root? steps)) := by
  match steps with
  | [] => exact .pure fun _ _ _ _ => rfl
  | step :: rest =>
    rw [accesses, stepsUnknown]
    apply (reads_access step).bind
    intro access a _ haccess
    refine (reads_accesses rest).map fun accesses a' ha' haccesses a'' ha'' => ?_
    have hfirst : access.tree a''.tree = step.tree names.root? := haccess a'' (ha'.trans ha'')
    have hrest : accesses.map (Access.tree a''.tree) = stepsTree names.root? rest :=
      haccesses a'' ha''
    dsimp only
    rw [List.map_cons, hfirst, hrest, stepsTree]

theorem reads_arguments {base : Arena} (args : List Ast) :
    Gives base (argumentsUnknown names operand args) (arguments names operand args)
      (Reads (fun a ids => ids.map a.tree) (argumentsTree names.root? args)) := by
  match args with
  | [] => exact .pure fun _ _ _ _ => rfl
  | arg :: rest =>
    rw [arguments, argumentsUnknown]
    apply (reads_expr arg).bind
    intro id a _ hid
    refine (reads_arguments rest).map fun ids a' ha' hids a'' ha'' => ?_
    have hrest : ids.map a''.tree = argumentsTree names.root? rest := hids a'' ha''
    dsimp only
    rw [List.map_cons, hid a'' (ha'.trans ha''), hrest, argumentsTree]

end

theorem reads_exprOperand {base : Arena} (e : Ast) :
    Gives base (e.unknown names operand) (do return .expr (← expr names operand e))
      (Reads Operand.tree (e.tree names.root?)) :=
  (reads_expr names operand e).map fun _ _ _ hid => hid

/-- A lowered operand is read back as its tree, also where it was made simpler than a node. -/
theorem reads_operandOf {base : Arena} (e : Ast) :
    Gives base (e.unknown names operand) (operandOf names operand e)
      (Reads Operand.tree (e.tree names.root?)) := by
  match e with
  | .const v =>
    rw [operandOf, Ast.unknown]
    exact .pure fun _ _ _ _ => rfl
  | .path head steps =>
    cases hroot : names.root? head with
    | none =>
      rw [operandOf, ← List.append_nil ((Ast.path head steps).unknown names operand)]
      apply (gives_root_of_unknown names operand hroot steps).bind
      rintro _ a _ rfl
      exact .pure fun _ _ _ _ => by rw [Ast.tree, hroot]; rfl
    | some r =>
      rw [operandOf, root_of_root? names operand hroot, pure_bind,
        unknown_of_root? names operand hroot, ← List.append_nil (stepsUnknown names operand steps)]
      apply (reads_accesses names operand steps).bind
      intro accesses a _ haccesses
      have htree (a' : Arena) (ha' : a.nodes <:+ a'.nodes) :
          Path.tree a'.tree ⟨r, accesses⟩ = (Ast.path head steps).tree names.root? := by
        have hsteps : accesses.map (Access.tree a'.tree) = stepsTree names.root? steps :=
          haccesses a' ha'
        rw [Path.tree, hsteps, Ast.tree, hroot]
      split
      all_goals exact .pure fun a' ha' a'' ha'' => htree a'' (ha'.trans ha'')
  | .unary op inner => exact reads_exprOperand names operand (.unary op inner)
  | .binary op left right => exact reads_exprOperand names operand (.binary op left right)

end

theorem reads_ofText {names : Names} {arena : Arena} {text : List Char} {source : Operand}
    {after : Lowering} (h : ofText names arena text = .ok (source, after)) :
    ∃ e, Expr.parse text = .ok e ∧ arena.nodes <:+ after.arena.nodes ∧
      after.unknown = e.unknown names (Text.trim text) ∧
      Reads Operand.tree (e.tree names.root?) after.arena source := by
  simp only [ofText, Expr.parse_trim] at h
  split at h
  · cases h
  · next e he =>
    obtain ⟨harena, hunknown, htree⟩ := reads_operandOf names (Text.trim text) e { arena }
      List.suffix_rfl
    rw [Except.ok.inj h] at harena hunknown htree
    exact ⟨e, he, harena, hunknown, htree⟩

end Lowering

end TemplateEngine

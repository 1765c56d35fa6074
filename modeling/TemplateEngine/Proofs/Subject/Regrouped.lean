import TemplateEngine.Proofs.Subject.Spelling

/-! Conjunctions and disjunctions grouped anew. Where one stands to the right of another of its
kind, parentheses around it change neither what the tree comes to nor how it is spelled. -/
namespace TemplateEngine.Expr

/-- What cannot be told of two trees from their words, their values and their failures. -/
structure Ast.Same (e e' : Ast) : Prop where
  spelled : e'.spelled = e.spelled
  text (names : Names) : e'.text names = e.text names
  value (names : Names) (s : Scope) : e'.value names s = e.value names s
  names : e'.names = e.names
  number : Grammar.IsNumber e' ↔ Grammar.IsNumber e
  legible : e.Legible → e'.Legible

structure Step.Same (step step' : Step) : Prop where
  spelled : step'.spelled = step.spelled
  text (names : Names) : step'.text names = step.text names
  value (names : Names) (s : Scope) (v : Value) : step'.value names s v = step.value names s v
  names : step'.names = step.names
  legible : step.Legible → step'.Legible

structure StepsSame (steps steps' : List Step) : Prop where
  empty : steps' = [] → steps = []
  spelled : stepsSpelled steps' = stepsSpelled steps
  text (names : Names) : stepsText names steps' = stepsText names steps
  value (names : Names) (s : Scope) (v : Value) :
    stepsValue names s v steps' = stepsValue names s v steps
  names : stepsNames steps' = stepsNames steps
  legible : stepsLegible steps → stepsLegible steps'

structure ArgumentsSame (args args' : List Ast) : Prop where
  spelled : argumentsSpelled args' = argumentsSpelled args
  more : moreSpelled args' = moreSpelled args
  text (names : Names) : argumentTexts names args' = argumentTexts names args
  value (names : Names) (s : Scope) : argumentValues names s args' = argumentValues names s args
  names : argumentsNames args' = argumentsNames args
  legible : argumentsLegible args → argumentsLegible args'

/-- Whether the right side is looked at only if the left side does not decide. -/
def BinaryOp.isLogical : BinaryOp → Bool
  | .and | .or => true
  | _ => false

/-- Puts an operator between two trees, of which the right one gives up its own operators of this
kind to stand to the right of it. -/
def Ast.joined (op : BinaryOp) (left : Ast) : Ast → Ast
  | .binary op' middle right =>
    if op' = op then .binary op (joined op left middle) right
    else .binary op left (.binary op' middle right)
  | .const v => .binary op left (.const v)
  | .path head steps => .binary op left (.path head steps)
  | .unary op' operand => .binary op left (.unary op' operand)

mutual

/-- A tree with its conjunctions and disjunctions grouped to the left, as they are read. -/
def Ast.regrouped : Ast → Ast
  | .const v => .const v
  | .path head steps => .path head (stepsRegrouped steps)
  | .unary op operand => .unary op operand.regrouped
  | .binary op left right =>
    if op.isLogical then .joined op left.regrouped right.regrouped
    else .binary op left.regrouped right.regrouped

def Step.regrouped : Step → Step
  | .field name => .field name
  | .index i => .index i
  | .key k => .key k
  | .call name args => .call name (argumentsRegrouped args)

def stepsRegrouped : List Step → List Step
  | [] => []
  | step :: rest => step.regrouped :: stepsRegrouped rest

def argumentsRegrouped : List Ast → List Ast
  | [] => []
  | arg :: rest => arg.regrouped :: argumentsRegrouped rest

end

namespace Ast

variable {e e' e'' left left' right right' : Ast}

theorem Same.refl (e : Ast) : e.Same e :=
  ⟨rfl, fun _ => rfl, fun _ _ => rfl, rfl, .rfl, id⟩

theorem Same.trans (h : e.Same e') (h' : e'.Same e'') : e.Same e'' where
  spelled := h'.spelled.trans h.spelled
  text names := (h'.text names).trans (h.text names)
  value names s := (h'.value names s).trans (h.value names s)
  names := h'.names.trans h.names
  number := h'.number.trans h.number
  legible hlegible := h'.legible (h.legible hlegible)

theorem Same.unary (h : e.Same e') (op : UnaryOp) : (Ast.unary op e).Same (.unary op e') where
  spelled := by rw [Ast.spelled, Ast.spelled, h.spelled]
  text names := by rw [Ast.text, Ast.text, h.text]
  value names s := by rw [Ast.value, Ast.value, Ast.text, Ast.text, h.value, h.text]
  names := h.names
  number := .rfl
  legible hlegible := ⟨fun hop => mt h.number.mp (hlegible.1 hop), h.legible hlegible.2⟩

theorem Same.binary (h : left.Same left') (h' : right.Same right') (op : BinaryOp) :
    (Ast.binary op left right).Same (.binary op left' right') where
  spelled := by rw [Ast.spelled, Ast.spelled, h.spelled, h'.spelled]
  text names := by rw [Ast.text, Ast.text, h.text, h'.text]
  value names s := by
    have htext :
        (Ast.binary op left' right').text names = (Ast.binary op left right).text names := by
      rw [Ast.text, Ast.text, h.text, h'.text]
    cases op <;> simp only [Ast.value, h.value, h'.value, htext]
  names := by rw [Ast.names, Ast.names, h.names, h'.names]
  number := .rfl
  legible hlegible := ⟨h.legible hlegible.1, h'.legible hlegible.2⟩

theorem Same.path {steps steps' : List Step} (h : StepsSame steps steps') (head : Head) :
    (Ast.path head steps).Same (.path head steps') where
  spelled := by rw [Ast.spelled, Ast.spelled, h.spelled]
  text names := by simp only [Ast.text, h.text]
  value names s := by simp only [Ast.value, Ast.text, h.value, h.text]
  names := by rw [Ast.names, Ast.names, h.names]
  number := .rfl
  legible hlegible :=
    ⟨hlegible.1, fun hempty => hlegible.2.1 (h.empty hempty), h.legible hlegible.2.2⟩

/-- What two sides come to of which the left one decides if it is `stop`. -/
def decided (stop : Bool) (left right : Except DataError Value) : Except DataError Value := do
  if (← left).isTruthy = stop then return .bool stop else return .bool (← right).isTruthy

theorem decided_assoc (stop : Bool) (a b c : Except DataError Value) :
    decided stop (decided stop a b) c = decided stop a (decided stop b c) := by
  have hbool (b : Bool) : (Value.bool b).isTruthy = b := rfl
  cases a with
  | error e => rfl
  | ok v =>
    by_cases hv : v.isTruthy = stop
    · simp [decided, hv, hbool, bind, Except.bind, pure, Except.pure]
    · cases b with
      | error e => simp [decided, hv, bind, Except.bind]
      | ok w =>
        by_cases hw : w.isTruthy = stop <;> cases c <;>
          simp [decided, hv, hw, hbool, bind, Except.bind, pure, Except.pure]

theorem value_logical {op : BinaryOp} (hop : op.isLogical) (names : Names) (s : Scope) :
    (Ast.binary op left right).value names s =
      decided (op = .or) (left.value names s) (right.value names s) := by
  cases op with
  | and =>
    simp only [Ast.value, decided]
    refine bind_congr fun v => ?_
    cases v.isTruthy <;> rfl
  | or => simp [Ast.value, decided]
  | _ => cases hop

/-- The three sides of two conjunctions, or of two disjunctions, are looked at from left to right,
however they are grouped. -/
theorem same_regroup {op : BinaryOp} (hop : op.isLogical) (a b c : Ast) :
    (Ast.binary op a (.binary op b c)).Same (.binary op (.binary op a b) c) where
  spelled := by simp only [Ast.spelled, List.append_assoc, List.cons_append]
  text names := by simp only [Ast.text, String.append_assoc]
  value names s := by simp only [value_logical hop, decided_assoc]
  names := by simp only [Ast.names, List.append_assoc]
  number := .rfl
  legible h := ⟨⟨h.1, h.2.1⟩, h.2.2⟩

theorem same_joined {op : BinaryOp} (hop : op.isLogical) (left right : Ast) :
    (Ast.binary op left right).Same (joined op left right) := by
  fun_induction joined op left right with
  | case1 middle right ih =>
    exact (same_regroup hop left middle right).trans (ih.binary (.refl right) op)
  | case2 | case3 | case4 | case5 => exact .refl _

end Ast

mutual

theorem Ast.same_regrouped (e : Ast) : e.Same e.regrouped := by
  match e with
  | .const v => exact .refl _
  | .path head steps => exact .path (stepsSame_regrouped steps) head
  | .unary op operand => exact (Ast.same_regrouped operand).unary op
  | .binary op left right =>
    have h := (Ast.same_regrouped left).binary (Ast.same_regrouped right) op
    rw [Ast.regrouped]
    split
    · next hop => exact h.trans (Ast.same_joined hop _ _)
    · exact h

theorem Step.same_regrouped (step : Step) : step.Same step.regrouped := by
  match step with
  | .field _ => exact ⟨rfl, fun _ => rfl, fun _ _ _ => rfl, rfl, id⟩
  | .index _ => exact ⟨rfl, fun _ => rfl, fun _ _ _ => rfl, rfl, id⟩
  | .key _ => exact ⟨rfl, fun _ => rfl, fun _ _ _ => rfl, rfl, id⟩
  | .call name args =>
    have h := argumentsSame_regrouped args
    exact {
      spelled := by rw [Step.regrouped, Step.spelled, Step.spelled, h.spelled]
      text := fun names => by rw [Step.regrouped, Step.text, Step.text, h.text]
      value := fun names s v => by simp only [Step.regrouped, Step.value, h.value]
      names := h.names
      legible := fun hlegible => ⟨hlegible.1, h.legible hlegible.2⟩ }

theorem stepsSame_regrouped (steps : List Step) : StepsSame steps (stepsRegrouped steps) := by
  match steps with
  | [] => exact ⟨id, rfl, fun _ => rfl, fun _ _ _ => rfl, rfl, id⟩
  | step :: rest =>
    have h := Step.same_regrouped step
    have hrest := stepsSame_regrouped rest
    exact {
      empty := nofun
      spelled := by rw [stepsRegrouped, stepsSpelled, stepsSpelled, h.spelled, hrest.spelled]
      text := fun names => by rw [stepsRegrouped, stepsText, stepsText, h.text, hrest.text]
      value := fun names s v => by
        rw [stepsRegrouped, stepsValue, stepsValue, h.value]
        exact bind_congr fun w => hrest.value names s w
      names := by rw [stepsRegrouped, stepsNames, stepsNames, h.names, hrest.names]
      legible := fun hlegible => ⟨h.legible hlegible.1, hrest.legible hlegible.2⟩ }

theorem argumentsSame_regrouped (args : List Ast) :
    ArgumentsSame args (argumentsRegrouped args) := by
  match args with
  | [] => exact ⟨rfl, rfl, fun _ => rfl, fun _ _ => rfl, rfl, id⟩
  | arg :: rest =>
    have h := Ast.same_regrouped arg
    have hrest := argumentsSame_regrouped rest
    exact {
      spelled := by
        rw [argumentsRegrouped, argumentsSpelled, argumentsSpelled, h.spelled, hrest.more]
      more := by rw [argumentsRegrouped, moreSpelled, moreSpelled, h.spelled, hrest.more]
      text := fun names => by
        rw [argumentsRegrouped, argumentTexts, argumentTexts, h.text, hrest.text]
      value := fun names s => by
        rw [argumentsRegrouped, argumentValues, argumentValues, h.value, hrest.value]
      names := by rw [argumentsRegrouped, argumentsNames, argumentsNames, h.names, hrest.names]
      legible := fun hlegible => ⟨h.legible hlegible.1, hrest.legible hlegible.2⟩ }

end

end TemplateEngine.Expr

import TemplateEngine.Run.Machine

/-! What a run asks its context for. Whatever can fail is such a question; a run reports the failure
and goes on with a default. -/
namespace TemplateEngine

/-- What a run does about a failure before it goes on. -/
abbrev Reporter (σ : Type) := DataError → Run σ Unit

namespace Run

variable {σ α : Type}

/-- Writes placeholders, or nothing. -/
def report [Sink σ] (placeholders : Bool) : Reporter σ :=
  fun e => if placeholders then Run.emit e.placeholder else pure ()

/-- Asks the context for something. A failure is reported, and answered by `default`. -/
def attempt (report : Reporter σ) (default : α) (ask : Context → Except DataError α) : Run σ α := do
  match ask (← get).context with
  | .ok a => return a
  | .error e => report e; return default

end Run

namespace Frame

variable (f : Frame)

/-! What the instructions of a template ask the context for. -/

def value (o : Operand) (c : Context) : Except DataError Value :=
  (f.scope c).resolve o

def shown (o : Operand) (c : Context) : Except DataError (List String) :=
  match (f.scope c).resolve o with
  | .ok .null => .error ⟨(f.scope c).operandText o, .noValue⟩
  | .ok v => .ok v.pieces
  | .error e => .error e

def holds (o : Operand) (c : Context) : Except DataError Bool :=
  ((f.scope c).resolve o).map Value.isTruthy

def items (o : Operand) (c : Context) : Except DataError (List Value) :=
  let refuse (v : Value) : Except DataError (List Value) :=
    .error ⟨(f.scope c).operandText o, .notAContainer v.typeName⟩
  match (f.scope c).resolve o with
  | .error e => .error e
  | .ok .null => .ok []
  | .ok (.list items) => .ok items
  | .ok (.map entries) => .ok (entries.map (·.2))
  | .ok (.object o) => (f.world.host.elements o).elim (refuse (.object o)) .ok
  | .ok v => refuse v

/-- The text of what an operation answers, piece by piece. -/
def answer (op : Operation) (arg : Option Operand) (c : Context) : Except DataError (List String) :=
  match arg.mapM (f.scope c).resolve with
  | .error e => .error e
  | .ok arg =>
    let expected := f.template.operations.map (·.typeName)
    let found := c.target.typeName
    if expected.all (· == found) then
      match op.run c.target arg with
      | .ok v => .ok v.pieces
      | .error reason => .error ⟨op.name, .operationFailed reason⟩
    else .error ⟨op.name, .operationTarget (expected.getD "") found⟩

end Frame

namespace Frame

variable {σ : Type} [Sink σ] (f : Frame)

omit [Sink σ] in
theorem currentScope_bind {α : Type} (k : Scope → Run σ α) :
    f.currentScope >>= k = get >>= fun s => k (f.scope s.context) := by
  simp only [currentScope, bind_assoc, pure_bind]

theorem valueOrNull_eq (o : Operand) :
    (f.valueOrNull o : Run σ Value) = Run.attempt f.report .null (f.value o) := by
  rw [valueOrNull, currentScope_bind, Run.attempt]
  apply bind_congr
  intro s
  rw [value]
  cases (f.scope s.context).resolve o <;> rfl

theorem condition_eq (o : Operand) :
    (f.condition o : Run σ Bool) = Run.attempt f.report false (f.holds o) := by
  rw [condition, currentScope_bind, Run.attempt]
  apply bind_congr
  intro s
  rw [holds]
  cases (f.scope s.context).resolve o <;> rfl

theorem writeVariable_eq (o : Operand) :
    (f.writeVariable o : Run σ Unit) =
      Run.attempt f.report [] (f.shown o) >>= Run.emitAll := by
  rw [writeVariable, currentScope_bind, Run.attempt, bind_assoc]
  apply bind_congr
  intro s
  rw [shown]
  generalize (f.scope s.context).resolve o = r
  match r with
  | .error e => simp [Run.emitAll]
  | .ok v => cases v <;> simp [Run.emitAll]

theorem elements_eq (o : Operand) :
    (f.elements o : Run σ (List Value)) = Run.attempt f.report [] (f.items o) := by
  rw [elements, currentScope_bind, Run.attempt]
  apply bind_congr
  intro s
  rw [items]
  generalize (f.scope s.context).resolve o = r
  match r with
  | .error e => rfl
  | .ok v =>
    cases v with
    | object o =>
      dsimp only
      cases f.world.host.elements o <;> rfl
    | _ => rfl

theorem exec_eq (op : Operation) (arg : Option Operand) :
    (f.exec op arg : Run σ Unit) =
      Run.attempt f.report [] (f.answer op arg) >>= Run.emitAll := by
  rw [exec, currentScope_bind, Run.attempt, bind_assoc]
  apply bind_congr
  intro s
  rw [answer]
  cases arg.mapM (f.scope s.context).resolve with
  | error e => simp [Run.emitAll]
  | ok arg =>
    have htarget : (f.scope s.context).target = s.context.target := rfl
    dsimp only
    rw [htarget]
    split
    · cases op.run s.context.target arg with
      | error reason => simp [Run.emitAll]
      | ok v => cases v <;> simp only [pure_bind] <;> rfl
    · simp [Run.emitAll]

end Frame

end TemplateEngine

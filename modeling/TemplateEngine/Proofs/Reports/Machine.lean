import TemplateEngine.Proofs.Lockstep.Pairing

/-! Runs with what they do about data errors as a parameter. -/
namespace TemplateEngine

/-- The context of a call with one argument put into it. -/
def Context.bound (callee : Template) (a : Argument) (v : Value) (c : Context) :
    Except DataError Context :=
  match a.slot with
  | some slot => .ok (c.store slot v)
  | none =>
    match c.set a.name v with
    | .ok c => .ok c
    | .error _ => .error ⟨a.name, .unknownParameter callee.name a.name⟩

namespace Reporting

variable {σ : Type} (report : Reporter σ)

/-! What the machine does at an instruction, with its reports as a parameter. -/

def evaluate (f : Frame) : List Argument → Run σ (List (Argument × Value))
  | [] => pure []
  | a :: rest => do
    let v ← Run.attempt report .null (f.value a.value)
    return (a, v) :: (← evaluate f rest)

def bindArguments (callee : Template) : List (Argument × Value) → Run σ Unit
  | [] => pure ()
  | (a, v) :: rest => do
    match ← Run.attempt report none fun c => (c.bound callee a v).map some with
    | some context => modify fun s => { s with context }
    | none => pure ()
    bindArguments callee rest

variable [Sink σ] (f : Frame)

def call (enter : Enter σ) (c : Call) : Run σ Unit := do
  match ← Run.attempt report none fun k => (f.callee k c.callee).map some with
  | some callee =>
    let args ← evaluate report f c.args
    enter callee c.site (bindArguments report callee args)
  | none => pure ()

def act (enter : Enter σ) (index : Nat) : Action → Run σ Unit
  | .literal text => Run.emit text
  | .variable source => do Run.emitAll (← Run.attempt report [] (f.shown source))
  | .set target value => do Run.store target (← Run.attempt report .null (f.value value))
  | .call c => call report f enter c
  | .exec op arg => do Run.emitAll (← Run.attempt report [] (f.answer op arg))
  | .debug value compare => f.debug index value compare

def walker (enter : Enter σ) : Walker σ where
  act := act report f enter
  condition x := Run.attempt report false (f.holds x)
  elements x := Run.attempt report [] (f.items x)

def walk (enter : Enter σ) : Nat → List Instr → Run σ Unit :=
  (walker report f enter).walk

def runTemplate (w : World) (o : RunOptions) :
    (depth : Nat) → (chain : List String) → Template → Run σ Unit :=
  runTemplateBy Run.within (fun t enter => walk report ⟨w, o, t⟩ enter 0 t.instrs) o.maxDepth

def run (w : World) (o : RunOptions) (t : Template) (c : Context) (sink : σ) : Outcome σ :=
  .inContext (runTemplate report w o o.maxDepth [t.name] t) t c sink

end Reporting

namespace Reporting

variable {σ : Type} [Sink σ] (f : Frame)

theorem evaluate_eq (args : List Argument) :
    (f.evaluate args : Run σ (List (Argument × Value))) = evaluate f.report f args := by
  induction args with
  | nil => rfl
  | cons a rest ih => rw [Frame.evaluate, evaluate, f.valueOrNull_eq, ih]

theorem bindArgument_eq (u : Template) (a : Argument) (v : Value) :
    (f.bindArgument u a v : Run σ Unit) =
      Run.attempt f.report none (fun c => (c.bound u a v).map some) >>= fun
        | some context => modify fun s => { s with context }
        | none => pure () := by
  rw [Frame.bindArgument, Run.attempt, bind_assoc]
  unfold Context.bound
  cases a.slot with
  | some slot => rfl
  | none =>
    apply bind_congr
    intro s
    dsimp only
    cases s.context.set a.name v <;> simp [Except.map]

theorem bindArguments_eq (u : Template) (values : List (Argument × Value)) :
    (f.bindArguments u values : Run σ Unit) = bindArguments f.report u values := by
  induction values with
  | nil => rfl
  | cons x rest ih =>
    obtain ⟨a, v⟩ := x
    rw [Frame.bindArguments_cons, bindArguments, ih, bindArgument_eq, bind_assoc]
    apply bind_congr
    intro context
    cases context <;> rfl

theorem call_eq (enter : Enter σ) (c : Call) : f.call enter c = call f.report f enter c := by
  rw [Frame.call, call, Run.attempt, bind_assoc]
  apply bind_congr
  intro s
  cases f.callee s.context c.callee with
  | error e => simp [Except.map]
  | ok u =>
    simp only [Except.map, pure_bind, evaluate_eq, bindArguments_eq]

theorem act_eq (enter : Enter σ) (index : Nat) (a : Action) :
    f.act enter index a = act f.report f enter index a := by
  match a with
  | .literal text => rfl
  | .variable source => exact f.writeVariable_eq source
  | .set target value => rw [Frame.act, act, f.valueOrNull_eq]
  | .call c => exact call_eq f enter c
  | .exec op arg => exact f.exec_eq op arg
  | .debug value compare => rfl

theorem walker_eq (enter : Enter σ) : f.walker enter = walker f.report f enter := by
  simp only [Frame.walker, walker, Walker.mk.injEq]
  exact ⟨funext₂ (act_eq f enter), funext f.condition_eq, funext f.elements_eq⟩

/-- The machine reports by writing placeholders, or nothing. -/
theorem runTemplate_eq (w : World) (o : RunOptions) (depth : Nat) (chain : List String)
    (t : Template) :
    (TemplateEngine.runTemplate w o depth chain t : Run σ Unit) =
      runTemplate (Run.report o.placeholders) w o depth chain t := by
  have hwalk (t : Template) (enter : Enter σ) : Frame.walk ⟨w, o, t⟩ enter 0 t.instrs =
      walk (Run.report o.placeholders) ⟨w, o, t⟩ enter 0 t.instrs := by
    rw [Frame.walk, walker_eq]
    rfl
  simp only [TemplateEngine.runTemplate, runTemplateWith, runTemplate, hwalk]

theorem run_eq (w : World) (o : RunOptions) (t : Template) (c : Context) (sink : σ) :
    TemplateEngine.run w o t c sink = run (Run.report o.placeholders) w o t c sink := by
  rw [TemplateEngine.run, run, runTemplate_eq]

end Reporting

end TemplateEngine

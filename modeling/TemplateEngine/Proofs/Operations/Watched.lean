import TemplateEngine.Proofs.Lockstep.Pairing
import TemplateEngine.Proofs.Operations.Compiled
import TemplateEngine.Proofs.Operations.Invoked

/-! Runs under watch. Each time that an instruction which invokes an operation is executed, a record
is kept of it: the states before and after, and what it invoked in between. -/
namespace TemplateEngine

/-- One execution of an instruction that invokes an operation. -/
structure Execution (σ : Type) where
  template : Template
  op : Operation
  arg : Option Operand
  before : RunState σ
  invocations : List Invocation
  result : Except RunError Unit
  after : RunState σ

namespace Frame

variable {σ : Type} [Sink σ] (f : Frame)

/-- Executes such an instruction with a log of its own, and keeps the record. -/
def watchedExec (op : Operation) (arg : Option Operand) : Run (Logged σ (Execution σ)) Unit :=
  fun s =>
    let before := s.withoutLog
    let (result, logged) := (f.execBy Invocation.logged op arg).run (before.withLog [])
    let after := logged.withoutLog
    let record : Execution σ :=
      { template := f.template, op, arg, before, invocations := logged.sink.log, result, after }
    (result, after.withLog (s.sink.log ++ [record]))

def watchedAct (enter : Enter (Logged σ (Execution σ))) (index : Nat) :
    Action → Run (Logged σ (Execution σ)) Unit
  | .exec op arg => f.watchedExec op arg
  | a => f.act enter index a

/-- The machine under watch. -/
def watchedWalker (enter : Enter (Logged σ (Execution σ))) : Walker (Logged σ (Execution σ)) :=
  { f.walker enter with act := f.watchedAct enter }

end Frame

section

variable {σ : Type} [Sink σ] (w : World) (o : RunOptions)

def runWatchedTemplate : (depth : Nat) → (chain : List String) → Template →
    Run (Logged σ (Execution σ)) Unit :=
  runTemplateBy Run.within (fun t enter => (Frame.watchedWalker ⟨w, o, t⟩ enter).walk 0 t.instrs)
    o.maxDepth

/-- Runs a template under watch, in a context that was made for it. -/
def runWatched (t : Template) (c : Context) (sink : σ) : Outcome (Logged σ (Execution σ)) :=
  .inContext (runWatchedTemplate w o o.maxDepth [t.name] t) t c ⟨sink, []⟩

end

section

variable {σ : Type} [Sink σ]

/-- Nothing is invoked, and all that is done is to write one placeholder, or nothing if placeholders
are off. Only a sink that refuses the placeholder ends the run. -/
def Execution.OnlyReports (o : RunOptions) (x : Execution σ) (e : DataError) : Prop :=
  let (sink, taken) := Sink.write x.before.sink e.placeholder
  x.invocations = [] ∧
    if o.placeholders then
      x.after = { x.before with sink } ∧ x.result = if taken then .ok () else .error .output
    else x.after = x.before ∧ x.result = .ok ()

/-- The contract with the operations of `table`. Here `target` is what operations are invoked on
throughout a run. -/
structure Execution.Honours (w : World) (o : RunOptions) (target : Value) (table : OperationTable)
    (x : Execution σ) : Prop where
  listed : table.lookup? x.op.name = some x.op
  running : x.before.context.target = target
  once : x.invocations.length ≤ 1
  invoked : ∀ i ∈ x.invocations, i.op = x.op ∧ (i.arg.isSome ↔ x.op.arity = .unary) ∧
    i.target = target ∧ target.typeName = table.typeName
  unresolved : ∀ e,
    x.arg.mapM (Frame.scope ⟨w, o, x.template⟩ x.before.context).resolve = .error e →
      x.OnlyReports o e
  mistargeted : ∀ v, x.arg.mapM (Frame.scope ⟨w, o, x.template⟩ x.before.context).resolve = .ok v →
    target.typeName ≠ table.typeName →
    x.OnlyReports o ⟨x.op.name, .operationTarget table.typeName target.typeName⟩
  /-- Whatever comes next is carried out, from the state that the execution leaves behind. -/
  proceeds : x.result = .ok () → ∀ (enter : Enter σ) index rest,
    (Frame.walk ⟨w, o, x.template⟩ enter index (.action (.exec x.op x.arg) :: rest)).run.run
        x.before =
      (Frame.walk ⟨w, o, x.template⟩ enter (index + 1) rest).run.run x.after

/-- An execution of an instruction of a compiled template, according to the contract with the
operations that it was compiled with. -/
def Execution.ByContract (w : World) (o : RunOptions) (target : Value) (x : Execution σ) : Prop :=
  ∃ source options table, compile x.template.name source options = .ok x.template.toProgram ∧
    options.operations = some table ∧ .action (.exec x.op x.arg) ∈ x.template.instrs ∧
    x.Honours w o target table

/-- A run and the same run under watch. -/
structure Outcome.WatchedAs (r : Outcome σ) (n : Outcome (Logged σ (Execution σ))) : Prop where
  result : n.result = r.result
  context : n.context = r.context
  events : n.events = r.events
  sink : n.sink.sink = r.sink

end

end TemplateEngine

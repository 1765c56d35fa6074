import TemplateEngine.Catalog
import TemplateEngine.Run.Context
import TemplateEngine.Run.Resolve
import TemplateEngine.Sink.Basic

/-! Carrying out a program. Control passes forward only, so a run is a walk along the list of
instructions: a branch or a loop body is a first part of what follows its header, and a jump drops a
first part. What can end a run early is a refused write and too deep a call; all else that fails
leaves a note. -/
namespace TemplateEngine

inductive RunError where
  | contextMismatch (template : String) (expected found : TemplateId)
  | recursionLimit (limit : Nat) (chain : List String)
  | output
  deriving DecidableEq, Repr

def RunError.message : RunError → String
  | .contextMismatch template expected found =>
    "context belongs to template #" ++ toString found ++ ", cannot run `" ++ template ++ "` (#" ++
      toString expected ++ ")"
  | .recursionLimit limit chain =>
    "call depth limit of " ++ toString limit ++ " exceeded: " ++ " -> ".intercalate chain
  | .output => "output sink failed"

/-- What a debug marker reports and to whom: the trigger, the template, the place of the marker in
its program, and what the marker names. -/
structure DebugEvent where
  trigger : TriggerId
  template : String
  index : Nat
  value : Option Value
  compare : Option String

structure World where
  catalog : Catalog := {}
  host : Host := .bare

structure RunOptions where
  maxDepth : Nat := 100
  placeholders : Bool := true

/-- The state of a run: the context of the running template, where it writes to, and the events so
far. -/
structure RunState (σ : Type) where
  context : Context
  sink : σ
  events : List DebugEvent := []

/-- A part of a run. What it did before it ended early remains. -/
abbrev Run (σ : Type) := ExceptT RunError (StateM (RunState σ))

namespace Run

variable {σ : Type} [Sink σ]

def emit (text : String) : Run σ Unit := do
  let s ← get
  let (sink, taken) := Sink.write s.sink text
  set { s with sink }
  if !taken then throw .output

/-- Writes the pieces of a text one after another, up to the first one that is refused. -/
def emitAll : List String → Run σ Unit
  | [] => pure ()
  | text :: rest => do
    emit text
    emitAll rest

def store (slot : SlotId) (v : Value) : Run σ Unit :=
  modify fun s => { s with context := s.context.store slot v }

def fire (e : DebugEvent) : Run σ Unit :=
  modify fun s => { s with events := s.events ++ [e] }

/-- Runs a call in its own context, which the caller's keeps afterwards, however the call ended. -/
def within (site : SiteId) (callee : Template) (body : Run σ Unit) : Run σ Unit :=
  fun s =>
    let (result, after) := body.run { s with context := s.context.enter site callee }
    (result, { after with context := s.context.leave site after.context })

end Run

/-- How a call is made: the callee, the site, and what puts the arguments into its context. -/
abbrev Enter (σ : Type) := Template → SiteId → Run σ Unit → Run σ Unit

/-- How the context of a call is come by, and what becomes of it afterwards. -/
abbrev Within (σ : Type) := SiteId → Template → Run σ Unit → Run σ Unit

/-- What stays the same while one template runs. -/
structure Frame where
  world : World
  options : RunOptions
  template : Template

namespace Frame

variable {σ : Type} [Sink σ] (f : Frame)

def scope (c : Context) : Scope where
  host := f.world.host
  slots := f.template.slots
  arena := f.template.arena
  values := c.values
  target := c.target

def currentScope : Run σ Scope := do
  return f.scope (← get).context

def report (e : DataError) : Run σ Unit :=
  if f.options.placeholders then Run.emit e.placeholder else pure ()

/-- The value of an operand. A failure is noted, and gives null. -/
def valueOrNull (o : Operand) : Run σ Value := do
  match (← f.currentScope).resolve o with
  | .ok v => return v
  | .error e => f.report e; return .null

/-- Writes a value piece by piece; null is noted as missing. -/
def writeVariable (o : Operand) : Run σ Unit := do
  let scope ← f.currentScope
  match scope.resolve o with
  | .ok .null => f.report ⟨scope.operandText o, .noValue⟩
  | .ok v => Run.emitAll v.pieces
  | .error e => f.report e

/-- Whether a condition holds. A failure is noted, and does not hold. -/
def condition (o : Operand) : Run σ Bool := do
  match (← f.currentScope).resolve o with
  | .ok v => return v.isTruthy
  | .error e => f.report e; return false

/-- The elements that a loop goes through. A failure is noted, and has none; nor has null, because
an unknown name was noted when the template was compiled. -/
def elements (o : Operand) : Run σ (List Value) := do
  let scope ← f.currentScope
  let refuse (v : Value) : Run σ (List Value) := do
    f.report ⟨scope.operandText o, .notAContainer v.typeName⟩
    return []
  match scope.resolve o with
  | .error e => f.report e; return []
  | .ok .null => return []
  | .ok (.list items) => return items
  | .ok (.map entries) => return entries.map (·.2)
  | .ok (.object o) =>
    match f.world.host.elements o with
    | some items => return items
    | none => refuse (.object o)
  | .ok v => refuse v

def callee (c : Context) : Callee → Except DataError Template
  | .known t => (f.world.catalog.template? t.id).elim (.error ⟨t.name, .unknownTemplate⟩) .ok
  | .named name =>
    match f.template.registry.bind f.world.catalog.registry? with
    | none => .error ⟨name, .registryDropped⟩
    | some r => (r.resolve? name).elim (.error ⟨name, .unknownTemplate⟩) .ok
  | .held slot =>
    let refuse (v : Value) : Except DataError Template :=
      .error ⟨(f.template.slots.nameOf? slot).getD "?", .notATemplate v.typeName⟩
    match (c.slot? slot).getD .null with
    | .template t => (f.world.catalog.template? t.id).elim (refuse (.template t)) .ok
    | v => refuse v

/-- Puts evaluated arguments into the context of a call, which is then the current one. One that the
callee does not know is noted. -/
def bindArguments (callee : Template) : List (Argument × Value) → Run σ Unit
  | [] => pure ()
  | (a, v) :: rest => do
    match a.slot with
    | some slot => Run.store slot v
    | none =>
      match (← get).context.set a.name v with
      | .ok context => modify fun s => { s with context }
      | .error _ => f.report ⟨a.name, .unknownParameter callee.name a.name⟩
    bindArguments callee rest

/-- The arguments of a call, evaluated in the caller from left to right. -/
def evaluate : List Argument → Run σ (List (Argument × Value))
  | [] => pure []
  | a :: rest => do
    let v ← f.valueOrNull a.value
    return (a, v) :: (← evaluate rest)

def call (enter : Enter σ) (c : Call) : Run σ Unit := do
  match f.callee (← get).context c.callee with
  | .error e => f.report e
  | .ok callee =>
    let args ← f.evaluate c.args
    enter callee c.site (f.bindArguments callee args)

/-- Invokes an operation on the operation target, which has to be of the type that the operations of
the template are for. A result other than null is written. -/
def exec (op : Operation) (arg : Option Operand) : Run σ Unit := do
  let scope ← f.currentScope
  match arg.mapM scope.resolve with
  | .error e => f.report e
  | .ok arg =>
    let expected := f.template.operations.map (·.typeName)
    let found := scope.target.typeName
    if expected.all (· == found) then
      match op.run scope.target arg with
      | .ok .null => pure ()
      | .ok v => Run.emitAll v.pieces
      | .error reason => f.report ⟨op.name, .operationFailed reason⟩
    else f.report ⟨op.name, .operationTarget (expected.getD "") found⟩

/-- Reports a debug marker to the trigger of the context. Where the marker says with what to
compare, its value has to be written so. Nothing is ever written. -/
def debug (index : Nat) (value : Option Operand) (compare : Option String) : Run σ Unit := do
  let scope ← f.currentScope
  let value := value.map fun o => (scope.resolve o).toOption.getD .null
  let shown := (value.map Value.render).getD ""
  match (← get).context.trigger with
  | some trigger =>
    if compare.all (· == shown) then
      Run.fire { trigger, template := f.template.name, index, value, compare }
  | none => pure ()

def act (enter : Enter σ) (index : Nat) : Action → Run σ Unit
  | .literal text => Run.emit text
  | .variable source => f.writeVariable source
  | .set target value => do Run.store target (← f.valueOrNull value)
  | .call c => f.call enter c
  | .exec op arg => f.exec op arg
  | .debug value compare => f.debug index value compare

/-- Carries out the body of a loop once for each element. Before a pass the element is in its slot
and the one after it in the other; after the last one comes null. -/
def passes (header : Loop) (body : Run σ Unit) : List Value → Run σ Unit
  | [] => pure ()
  | v :: rest => do
    Run.store header.entry v
    Run.store header.next (rest.head?.getD .null)
    body
    passes header body rest

end Frame

/-- What is done at the instructions of a program: how an action is carried out, which is told its
place, whether a condition holds, and what a loop goes through. -/
structure Walker (σ : Type) where
  act : Nat → Action → Run σ Unit
  condition : Operand → Run σ Bool
  elements : Operand → Run σ (List Value)

/-- Carries out instructions, the first of which is at place `index` of its program. -/
def Walker.walk {σ : Type} (k : Walker σ) (index : Nat) : List Instr → Run σ Unit
  | [] => pure ()
  | .action a :: rest => do
    k.act index a
    walk k (index + 1) rest
  | .branch _ cond next stop :: rest => do
    if ← k.condition cond then
      walk k (index + 1) (rest.take (next - 1))
      walk k (index + stop) (rest.drop (stop - 1))
    else
      walk k (index + next) (rest.drop (next - 1))
  | .otherwise :: rest => walk k (index + 1) rest
  | .endLoop :: rest => walk k (index + 1) rest
  | .loop header stop :: rest => do
    Frame.passes header (walk k (index + 1) (rest.take (stop - 2))) (← k.elements header.container)
    walk k (index + stop) (rest.drop (stop - 1))
termination_by is => is.length
decreasing_by
  all_goals simp only [List.length_cons, List.length_take, List.length_drop]
  all_goals omega

namespace Frame

variable {σ : Type} [Sink σ] (f : Frame)

/-- The machine itself; calls are made by `enter`. -/
def walker (enter : Enter σ) : Walker σ where
  act := f.act enter
  condition := f.condition
  elements := f.elements

def walk (enter : Enter σ) : Nat → List Instr → Run σ Unit :=
  (f.walker enter).walk

variable (enter : Enter σ) (index : Nat) (rest : List Instr)

@[simp] theorem walk_nil : f.walk enter index [] = pure () := by
  rw [walk, Walker.walk]

theorem walk_action (a : Action) :
    f.walk enter index (.action a :: rest) = (do
      f.act enter index a
      f.walk enter (index + 1) rest) := by
  rw [walk, Walker.walk]
  rfl

theorem walk_branch (first : Bool) (cond : Operand) (next stop : Nat) :
    f.walk enter index (.branch first cond next stop :: rest) = (do
      if ← f.condition cond then
        f.walk enter (index + 1) (rest.take (next - 1))
        f.walk enter (index + stop) (rest.drop (stop - 1))
      else
        f.walk enter (index + next) (rest.drop (next - 1))) := by
  rw [walk, Walker.walk]
  rfl

theorem walk_otherwise :
    f.walk enter index (.otherwise :: rest) = f.walk enter (index + 1) rest := by
  rw [walk, Walker.walk]

theorem walk_endLoop :
    f.walk enter index (.endLoop :: rest) = f.walk enter (index + 1) rest := by
  rw [walk, Walker.walk]

theorem walk_loop (header : Loop) (stop : Nat) :
    f.walk enter index (.loop header stop :: rest) = (do
      passes header (f.walk enter (index + 1) (rest.take (stop - 2)))
        (← f.elements header.container)
      f.walk enter (index + stop) (rest.drop (stop - 1))) := by
  rw [walk, Walker.walk]
  rfl

end Frame

/-- Runs a template and the templates that it calls. `body` carries out the instructions of one, and
`within` makes a call. `depth` more calls may be nested; `chain` names the templates that are
running, this one last. -/
def runTemplateBy {σ : Type} (within : Within σ) (body : Template → Enter σ → Run σ Unit)
    (limit : Nat) : (depth : Nat) → (chain : List String) → Template → Run σ Unit
  | 0, chain, t => body t fun callee _ _ => throw (.recursionLimit limit (chain ++ [callee.name]))
  | depth + 1, chain, t =>
    body t fun callee site bind =>
      within site callee do
        bind
        runTemplateBy within body limit depth (chain ++ [callee.name]) callee

section

variable {σ : Type} [Sink σ] (within : Within σ) (w : World) (o : RunOptions)

/-- Runs a template; `within` makes its calls. -/
def runTemplateWith : (depth : Nat) → (chain : List String) → Template → Run σ Unit :=
  runTemplateBy within (fun t enter => Frame.walk ⟨w, o, t⟩ enter 0 t.instrs) o.maxDepth

def runTemplate : (depth : Nat) → (chain : List String) → Template → Run σ Unit :=
  runTemplateWith Run.within w o

theorem runTemplate_zero (chain : List String) (t : Template) :
    (runTemplate w o 0 chain t : Run σ Unit) =
      Frame.walk ⟨w, o, t⟩ (fun callee _ _ =>
        throw (.recursionLimit o.maxDepth (chain ++ [callee.name]))) 0 t.instrs := rfl

theorem runTemplate_succ (depth : Nat) (chain : List String) (t : Template) :
    (runTemplate w o (depth + 1) chain t : Run σ Unit) =
      Frame.walk ⟨w, o, t⟩ (fun callee site bind =>
        Run.within site callee do
          bind
          runTemplate w o depth (chain ++ [callee.name]) callee) 0 t.instrs := rfl

end

structure Outcome (σ : Type) where
  result : Except RunError Unit
  context : Context
  sink : σ
  events : List DebugEvent

def Outcome.ofRun {σ : Type} (r : Except RunError Unit × RunState σ) : Outcome σ where
  result := r.1
  context := r.2.context
  sink := r.2.sink
  events := r.2.events

/-- Carries out a run of a template in a context that was made for it, and refuses any other. -/
def Outcome.inContext {σ : Type} (body : Run σ Unit) (t : Template) (c : Context) (sink : σ) :
    Outcome σ :=
  .ofRun <|
    if c.isFor t then body.run.run { context := c, sink }
    else (.error (.contextMismatch t.name t.id c.template), { context := c, sink })

def run {σ : Type} [Sink σ] (w : World) (o : RunOptions) (t : Template) (c : Context) (sink : σ) :
    Outcome σ :=
  .inContext (runTemplate w o o.maxDepth [t.name] t) t c sink

/-- The text that a run writes, if nothing ends it early. -/
def render (w : World) (o : RunOptions) (t : Template) (c : Context) :
    Except RunError String × Outcome TextSink :=
  let outcome := run w o t c ({} : TextSink)
  (outcome.result.map fun _ => outcome.sink.text, outcome)

end TemplateEngine

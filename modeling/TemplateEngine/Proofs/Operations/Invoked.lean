import TemplateEngine.Proofs.Lockstep.Basic

/-! What an instruction that invokes an operation does. Invocations are noted in a log beside the
sink, so that one can tell how many there were and of what. -/
namespace TemplateEngine

/-- A sink beside a log. -/
structure Logged (σ ε : Type) where
  sink : σ
  log : List ε := []

instance {σ ε : Type} [Sink σ] : Sink (Logged σ ε) where
  write s text :=
    let (sink, taken) := Sink.write s.sink text
    ({ s with sink }, taken)

namespace RunState

variable {σ ε : Type}

def withLog (s : RunState σ) (log : List ε) : RunState (Logged σ ε) :=
  { s with sink := ⟨s.sink, log⟩ }

def withoutLog (s : RunState (Logged σ ε)) : RunState σ :=
  { s with sink := s.sink.sink }

end RunState

theorem Run.run_emit_withLog {σ ε : Type} [Sink σ] (text : String) (s : RunState σ)
    (log : List ε) :
    (Run.emit text).run.run (s.withLog log) =
      (((Run.emit text).run.run s).1, ((Run.emit text).run.run s).2.withLog log) := by
  rw [Run.run_emit, Run.run_emit]
  rfl

theorem Run.run_emitAll_withLog {σ ε : Type} [Sink σ] (texts : List String) (s : RunState σ)
    (log : List ε) :
    (Run.emitAll texts).run.run (s.withLog log) =
      (((Run.emitAll texts).run.run s).1, ((Run.emitAll texts).run.run s).2.withLog log) := by
  induction texts generalizing s with
  | nil => rfl
  | cons text rest ih =>
    rw [emitAll, emitAll, run_bind, run_bind, run_emit_withLog]
    generalize (emit text).run.run s = r
    obtain ⟨result, after⟩ := r
    cases result with
    | error e => rfl
    | ok u => exact ih after

/-- One use of an operation. -/
structure Invocation where
  op : Operation
  target : Value
  arg : Option Value

def Invocation.reply (i : Invocation) : Except String Value :=
  i.op.run i.target i.arg

/-- An invocation that is put into the log. -/
def Invocation.logged {σ : Type} (i : Invocation) :
    Run (Logged σ Invocation) (Except String Value) := do
  modify fun s => { s with sink := { s.sink with log := s.sink.log ++ [i] } }
  return i.reply

namespace Frame

variable {σ : Type} [Sink σ] (f : Frame)

/-- Carries out an instruction that invokes an operation, where `invoke` is what invokes it. -/
def execBy (invoke : Invocation → Run σ (Except String Value)) (op : Operation)
    (arg : Option Operand) : Run σ Unit := do
  let scope ← f.currentScope
  match arg.mapM scope.resolve with
  | .error e => f.report e
  | .ok arg =>
    let expected := f.template.operations.map (·.typeName)
    let found := scope.target.typeName
    if expected.all (· == found) then
      match ← invoke ⟨op, scope.target, arg⟩ with
      | .ok .null => pure ()
      | .ok v => Run.emitAll v.pieces
      | .error reason => f.report ⟨op.name, .operationFailed reason⟩
    else f.report ⟨op.name, .operationTarget (expected.getD "") found⟩

/-- The machine invokes an operation by asking it for its reply. -/
theorem execBy_reply (op : Operation) (arg : Option Operand) :
    (f.execBy (fun i => pure i.reply) op arg : Run σ Unit) = f.exec op arg := by
  rw [execBy, exec]
  simp only [pure_bind]
  rfl

/-- What an instruction invokes in a context, or what keeps it from that. -/
def invocation (op : Operation) (arg : Option Operand) (c : Context) :
    Except DataError Invocation :=
  match arg.mapM (f.scope c).resolve with
  | .error e => .error e
  | .ok arg =>
    let expected := f.template.operations.map (·.typeName)
    let found := c.target.typeName
    if expected.all (· == found) then .ok ⟨op, c.target, arg⟩
    else .error ⟨op.name, .operationTarget (expected.getD "") found⟩

variable {f} in
theorem invocation_of_error {op : Operation} {arg : Option Operand} {c : Context} {e : DataError}
    (h : arg.mapM (f.scope c).resolve = .error e) : f.invocation op arg c = .error e := by
  rw [invocation, h]

section Table

variable {f} {table : OperationTable} (htable : f.template.operations = some table) {op : Operation}
  {arg : Option Operand} {c : Context}
include htable

theorem invocation_of_ok {v : Option Value} (h : arg.mapM (f.scope c).resolve = .ok v) :
    f.invocation op arg c = if table.typeName = c.target.typeName then .ok ⟨op, c.target, v⟩
      else .error ⟨op.name, .operationTarget table.typeName c.target.typeName⟩ := by
  rw [invocation, h, htable]
  simp only [Option.map_some, Option.all_some, beq_iff_eq, Option.getD_some]

theorem invocation_of_ne {v : Option Value} (h : arg.mapM (f.scope c).resolve = .ok v)
    (hne : c.target.typeName ≠ table.typeName) : f.invocation op arg c =
      .error ⟨op.name, .operationTarget table.typeName c.target.typeName⟩ := by
  rw [invocation_of_ok htable h, if_neg hne.symm]

theorem invocation_eq_ok {i : Invocation} (h : f.invocation op arg c = .ok i) :
    ∃ v, arg.mapM (f.scope c).resolve = .ok v ∧ c.target.typeName = table.typeName ∧
      i = ⟨op, c.target, v⟩ := by
  cases hv : arg.mapM (f.scope c).resolve with
  | error e =>
    rw [invocation_of_error hv] at h
    cases h
  | ok v =>
    rw [invocation_of_ok htable hv] at h
    split at h
    · next htype =>
      cases h
      exact ⟨v, rfl, htype.symm, rfl⟩
    · cases h

end Table

/-- What is done about the reply to an invocation. -/
def afterReply (op : Operation) : Except String Value → Run σ Unit
  | .ok .null => pure ()
  | .ok v => Run.emitAll v.pieces
  | .error reason => f.report ⟨op.name, .operationFailed reason⟩

theorem run_execBy (invoke : Invocation → Run σ (Except String Value)) (op : Operation)
    (arg : Option Operand) (s : RunState σ) :
    (f.execBy invoke op arg).run.run s =
      (match f.invocation op arg s.context with
        | .error e => f.report e
        | .ok i => invoke i >>= f.afterReply op).run.run s := by
  have heq : f.execBy invoke op arg = get >>= fun s =>
      match f.invocation op arg s.context with
      | .error e => f.report e
      | .ok i => invoke i >>= f.afterReply op := by
    rw [execBy, currentScope_bind]
    apply bind_congr
    intro s
    have htarget : (f.scope s.context).target = s.context.target := rfl
    rw [invocation, htarget]
    cases arg.mapM (f.scope s.context).resolve with
    | error e => rfl
    | ok arg =>
      dsimp only
      split
      · apply bind_congr
        rintro (reason | v)
        · rfl
        · cases v <;> rfl
      · rfl
  rw [heq]
  rfl

theorem run_exec (op : Operation) (arg : Option Operand) (s : RunState σ) :
    (f.exec op arg).run.run s =
      (match f.invocation op arg s.context with
        | .error e => f.report e
        | .ok i => f.afterReply op i.reply).run.run s := by
  rw [← execBy_reply, run_execBy]
  simp only [pure_bind]

theorem run_report_withLog {ε : Type} (e : DataError) (s : RunState σ) (log : List ε) :
    (f.report e).run.run (s.withLog log) =
      (((f.report e).run.run s).1, ((f.report e).run.run s).2.withLog log) := by
  unfold report
  split
  · exact Run.run_emit_withLog _ s log
  · rfl

theorem run_afterReply_withLog {ε : Type} (op : Operation) (reply : Except String Value)
    (s : RunState σ) (log : List ε) :
    (f.afterReply op reply).run.run (s.withLog log) =
      (((f.afterReply op reply).run.run s).1,
        ((f.afterReply op reply).run.run s).2.withLog log) := by
  cases reply with
  | error reason => exact f.run_report_withLog _ s log
  | ok v =>
    cases v with
    | null => rfl
    | _ => exact Run.run_emitAll_withLog _ s log

/-- With a log an instruction does the same, and notes its invocation if there is one. -/
theorem run_execBy_logged (op : Operation) (arg : Option Operand) (s : RunState σ)
    (log : List Invocation) :
    (f.execBy Invocation.logged op arg).run.run (s.withLog log) =
      (((f.exec op arg).run.run s).1, ((f.exec op arg).run.run s).2.withLog
        (log ++ (f.invocation op arg s.context).toOption.toList)) := by
  rw [run_execBy, run_exec]
  change (match f.invocation op arg s.context with
      | .error e => f.report e
      | .ok i => i.logged >>= f.afterReply op : Run (Logged σ Invocation) Unit).run.run
        (s.withLog log) = _
  cases f.invocation op arg s.context with
  | error e =>
    dsimp only [Except.toOption, Option.toList]
    rw [List.append_nil]
    exact f.run_report_withLog e s log
  | ok i => exact f.run_afterReply_withLog op i.reply s (log ++ [i])

/-- What a report does to a state. -/
theorem run_report (e : DataError) (s : RunState σ) :
    (f.report e).run.run s =
      if f.options.placeholders then
        (if (Sink.write s.sink e.placeholder).2 then .ok () else .error .output,
          { s with sink := (Sink.write s.sink e.placeholder).1 })
      else (.ok (), s) := by
  unfold report
  split
  · exact Run.run_emit _ s
  · rfl

end Frame

end TemplateEngine

import TemplateEngine.Proofs.Calls.Published
import TemplateEngine.Proofs.Operations.Watched

/-! Every execution in a run keeps to the contract with the operations. The compiler sees to the
arguments and the machine to the target, which is the same in all contexts of a run. -/
namespace TemplateEngine

namespace Context

theorem target_of_set {c c' : Context} {name : String} {v : Value} (h : c.set name v = .ok c') :
    c'.target = c.target := by
  obtain ⟨slot, rfl⟩ := exists_eq_store_of_set h
  rfl

end Context

theorem mem_toOption_toList {ε α : Type} {r : Except ε α} {a : α} :
    a ∈ r.toOption.toList ↔ r = .ok a := by
  cases r <;> simp [Except.toOption, eq_comm]

theorem isSome_of_mapM {ε α β : Type} {f : α → Except ε β} {x : Option α} {y : Option β}
    (h : x.mapM f = .ok y) : y.isSome = x.isSome := by
  cases x with
  | none =>
    cases h
    rfl
  | some a =>
    rw [Option.mapM_some] at h
    cases hfa : f a with
    | error e => rw [hfa] at h; cases h
    | ok b => rw [hfa] at h; cases h; rfl

section

variable {σ : Type} [Sink σ] {w : World} {o : RunOptions} {t : Template}

/-- What is recorded of an execution from a state. -/
def Frame.execution (f : Frame) (op : Operation) (arg : Option Operand) (s : RunState σ) :
    Execution σ where
  template := f.template
  op := op
  arg := arg
  before := s
  invocations := (f.invocation op arg s.context).toOption.toList
  result := ((f.exec op arg).run.run s).1
  after := ((f.exec op arg).run.run s).2

theorem Frame.run_watchedExec (f : Frame) (op : Operation) (arg : Option Operand) (s : RunState σ)
    (log : List (Execution σ)) :
    (f.watchedExec op arg).run.run (s.withLog log) =
      (((f.exec op arg).run.run s).1,
        ((f.exec op arg).run.run s).2.withLog (log ++ [f.execution op arg s])) := by
  have hlogged := f.run_execBy_logged op arg s []
  change (let r := (f.execBy Invocation.logged op arg).run.run (s.withLog [])
    (r.1, r.2.withoutLog.withLog (log ++ [(⟨f.template, op, arg, s, r.2.sink.log, r.1,
      r.2.withoutLog⟩ : Execution σ)]))) = _
  rw [hlogged]
  rfl

theorem Run.context_emitAll (texts : List String) (s : RunState σ) :
    ((Run.emitAll texts).run.run s).2.context = s.context := by
  induction texts generalizing s with
  | nil => rfl
  | cons text rest ih =>
    rw [emitAll, run_bind, run_emit]
    cases (Sink.write s.sink text).2 with
    | false => rfl
    | true => exact ih _

/-- Executing such an instruction changes nothing but the sink. -/
theorem Frame.context_exec (f : Frame) (op : Operation) (arg : Option Operand) (s : RunState σ) :
    ((f.exec op arg).run.run s).2.context = s.context := by
  have hreport (e : DataError) : ((f.report e : Run σ Unit).run.run s).2.context = s.context := by
    rw [run_report]
    split <;> rfl
  rw [run_exec]
  cases f.invocation op arg s.context with
  | error e => exact hreport e
  | ok i =>
    dsimp only
    cases i.reply with
    | error reason => exact hreport _
    | ok v =>
      cases v with
      | null => rfl
      | _ => exact Run.context_emitAll _ s

theorem Frame.onlyReports_execution {op : Operation} {arg : Option Operand} {s : RunState σ}
    {e : DataError} (h : Frame.invocation ⟨w, o, t⟩ op arg s.context = .error e) :
    (Frame.execution ⟨w, o, t⟩ op arg s).OnlyReports o e := by
  have hrun : (Frame.exec ⟨w, o, t⟩ op arg).run.run s = (Frame.report ⟨w, o, t⟩ e).run.run s := by
    rw [run_exec, h]
  simp only [Execution.OnlyReports, execution, hrun, run_report, h]
  refine ⟨rfl, ?_⟩
  split <;> exact ⟨rfl, rfl⟩

theorem Frame.honours_execution {table : OperationTable} (htable : t.operations = some table)
    {op : Operation} {arg : Option Operand} (hlisted : table.lookup? op.name = some op)
    (harity : arg.isSome ↔ op.arity = .unary) (s : RunState σ) :
    (Frame.execution ⟨w, o, t⟩ op arg s).Honours w o s.context.target table where
  listed := hlisted
  running := rfl
  once := by
    dsimp only [execution]
    cases Frame.invocation ⟨w, o, t⟩ op arg s.context <;> simp [Except.toOption]
  invoked i hi := by
    obtain ⟨v, hv, htype, rfl⟩ := invocation_eq_ok htable (mem_toOption_toList.mp hi)
    exact ⟨rfl, isSome_of_mapM hv ▸ harity, rfl, htype⟩
  unresolved e he := onlyReports_execution (invocation_of_error he)
  mistargeted v hv hne := onlyReports_execution (invocation_of_ne htable hv hne)
  proceeds hok enter index rest := by
    have hok : ((Frame.exec ⟨w, o, t⟩ op arg).run.run s).1 = .ok () := hok
    change (Frame.walk ⟨w, o, t⟩ enter index (.action (.exec op arg) :: rest)).run.run s =
      (Frame.walk ⟨w, o, t⟩ enter (index + 1) rest).run.run
        ((Frame.exec ⟨w, o, t⟩ op arg).run.run s).2
    rw [walk_action, Run.run_bind]
    dsimp only [act]
    generalize (Frame.exec ⟨w, o, t⟩ op arg).run.run s = r at hok
    obtain ⟨_, after⟩ := r
    cases hok
    rfl

end

/-- A part of a run beside the same part under watch, each execution of which is by contract.
Operations have the same target throughout. -/
def Watches {σ : Type} [Sink σ] (w : World) (o : RunOptions) (target : Value) {α β : Type}
    (A : α → β → Prop) (m : Run σ α) (m' : Run (Logged σ (Execution σ)) β) : Prop :=
  ∀ (s : RunState σ) (log : List (Execution σ)), s.context.target = target → ∃ more result,
    let after := (m.run.run s).2
    m'.run.run (s.withLog log) = (result, after.withLog (log ++ more)) ∧
      Agree A (m.run.run s).1 result ∧ after.context.target = target ∧
      ∀ x ∈ more, x.ByContract w o target

namespace Watches

variable {σ α β γ δ : Type} [Sink σ] {w : World} {o : RunOptions} {target : Value}
  {A : α → β → Prop} {B : γ → δ → Prop}

/-- A part that invokes nothing. -/
theorem plain {m : Run σ α} {m' : Run (Logged σ (Execution σ)) β}
    (h : ∀ (s : RunState σ) (log : List (Execution σ)), s.context.target = target → ∃ result,
      let after := (m.run.run s).2
      m'.run.run (s.withLog log) = (result, after.withLog log) ∧ Agree A (m.run.run s).1 result ∧
        after.context.target = target) : Watches w o target A m m' := by
  intro s log hs
  obtain ⟨result, hrun, hagree, htarget⟩ := h s log hs
  refine ⟨[], result, ?_, hagree, htarget, List.forall_mem_nil _⟩
  rw [List.append_nil]
  exact hrun

theorem bind {m : Run σ α} {m' : Run (Logged σ (Execution σ)) β} {f : α → Run σ γ}
    {f' : β → Run (Logged σ (Execution σ)) δ} (hm : Watches w o target A m m')
    (hf : ∀ a b, A a b → Watches w o target B (f a) (f' b)) :
    Watches w o target B (m >>= f) (m' >>= f') := by
  intro s log hs
  obtain ⟨more, result, hrun, hagree, htarget, hmore⟩ := hm s log hs
  rw [Run.run_bind, Run.run_bind, hrun]
  generalize m.run.run s = r at hagree htarget ⊢
  obtain ⟨_, after⟩ := r
  cases hagree with
  | error e => exact ⟨more, .error e, rfl, .error e, htarget, hmore⟩
  | ok hab =>
    obtain ⟨rest, result', hrun', hagree', htarget', hrest⟩ :=
      hf _ _ hab after (log ++ more) htarget
    refine ⟨more ++ rest, result', ?_, hagree', htarget', List.forall_mem_append.mpr ⟨hmore, hrest⟩⟩
    rw [← List.append_assoc]
    exact hrun'

theorem fire (e : DebugEvent) : Watches w o target Eq (Run.fire e : Run σ Unit) (Run.fire e) :=
  .plain fun _ _ hs => ⟨_, rfl, .ok rfl, hs⟩

theorem throw (e : RunError) : Watches w o target A (throw e : Run σ α) (throw e) :=
  .plain fun _ _ hs => ⟨_, rfl, .error e, hs⟩

theorem emit (text : String) :
    Watches w o target Eq (Run.emit text : Run σ Unit) (Run.emit text) := by
  apply plain
  intro s log hs
  rw [Run.run_emit_withLog]
  refine ⟨_, rfl, .self fun _ _ => rfl, ?_⟩
  rw [Run.run_emit]
  exact hs

def lockstep (w : World) (o : RunOptions) (target : Value) :
    Lockstep σ (Logged σ (Execution σ)) where
  contexts k k' := k = k' ∧ k.target = target
  Rel := Watches w o target
  pure h := .plain fun _ _ hs => ⟨_, rfl, .ok h, hs⟩
  bind := .bind
  get h := fun s log hs => h s (s.withLog log) ⟨rfl, hs⟩ s log hs
  put := by
    rintro k _ ⟨rfl, hk⟩
    exact .plain fun _ _ _ => ⟨_, rfl, .ok rfl, hk⟩
  emit := .emit
  store _ _ := .plain fun _ _ hs => ⟨_, rfl, .ok rfl, hs⟩

/-- The context of a call has the target of the caller. -/
theorem within {body : Run σ Unit} {body' : Run (Logged σ (Execution σ)) Unit}
    (h : Watches w o target Eq body body') (site : SiteId) (u : Template) :
    Watches w o target Eq (Run.within site u body) (Run.within site u body') := by
  intro s log hs
  obtain ⟨more, result, hrun, hagree, -, hmore⟩ :=
    h { s with context := s.context.enter site u } log hs
  refine ⟨more, result, ?_, hagree, hs, hmore⟩
  rw [Run.run_within, Run.run_within]
  dsimp only [RunState.withLog] at hrun ⊢
  rw [hrun]

section Walk

variable (w : World) (o : RunOptions) (target : Value) (t : Template)

theorem frames : (lockstep (σ := σ) w o target).Frames ⟨w, o, t⟩ ⟨w, o, t⟩ where
  scope := by
    rintro k _ ⟨rfl, -⟩
    rfl
  host := rfl
  operations := rfl
  report := Lockstep.report_of_placeholders rfl
  debug := by
    refine Lockstep.debug_of_fire ?_ rfl ?_ fire <;> rintro k _ ⟨rfl, -⟩ <;> rfl

theorem bindArguments (u : Template) (values : List (Argument × Value)) :
    Watches (σ := σ) w o target Eq (Frame.bindArguments ⟨w, o, t⟩ u values)
      (Frame.bindArguments ⟨w, o, t⟩ u values) := by
  refine Lockstep.bindArguments (L := lockstep w o target) (B := Eq) ?_
    (List.forall₂_same.mpr fun _ _ => rfl)
  rintro x _ rfl
  refine Lockstep.bindArgument_same (frames w o target t).report ?_ rfl rfl rfl x.2
  rintro k _ name v ⟨rfl, hk⟩
  exact .self fun k' hset => ⟨rfl, (Context.target_of_set hset).trans hk⟩

variable {w o target t}

/-- An execution under watch is by contract if the template was compiled. -/
theorem exec (ht : t.IsCompiled) {op : Operation} {arg : Option Operand}
    (hmem : .action (.exec op arg) ∈ t.instrs) :
    Watches (σ := σ) w o target Eq (Frame.exec ⟨w, o, t⟩ op arg)
      (Frame.watchedExec ⟨w, o, t⟩ op arg) := by
  intro s log hs
  refine ⟨[Frame.execution ⟨w, o, t⟩ op arg s], _, Frame.run_watchedExec _ op arg s log,
    .self fun _ _ => rfl, ?_, ?_⟩
  · rw [Frame.context_exec]
    exact hs
  · rw [List.forall_mem_singleton]
    obtain ⟨source, options, hcompile⟩ := ht
    obtain ⟨hoperations, ⟨table, htable, hlisted⟩, harity⟩ := invokesFrom_of_compile hcompile hmem
    exact ⟨source, options, table, hcompile, htable, hmem,
      hs ▸ Frame.honours_execution (hoperations.trans htable) hlisted harity s⟩

variable {enter : Enter σ} {enter' : Enter (Logged σ (Execution σ))}
  (ht : t.IsCompiled) (hw : w.catalog.Produced)
  (henter : (lockstep w o target).Enters Template.IsCompiled enter enter')
include ht hw henter

theorem act (index : Nat) {a : Action} (ha : .action a ∈ t.instrs) :
    Watches w o target Eq (Frame.act ⟨w, o, t⟩ enter index a)
      (Frame.watchedAct ⟨w, o, t⟩ enter' index a) := by
  by_cases hexec : ∃ op arg, a = .exec op arg
  · obtain ⟨op, arg, rfl⟩ := hexec
    exact exec ht ha
  · have hplain : Frame.watchedAct ⟨w, o, t⟩ enter' index a =
        Frame.act ⟨w, o, t⟩ enter' index a := by
      cases a with
      | exec op arg => exact absurd ⟨op, arg, rfl⟩ hexec
      | _ => rfl
    rw [hplain]
    refine (lockstep w o target).act (Q := Eq) (frames w o target t) ?_ index
      (Instr.alike_self fun _ _ => rfl)
    rintro c _ rfl
    refine (frames w o target t).call (U := fun u u' => u = u' ∧ u.IsCompiled)
      (B := fun _ _ => Eq) ?_ ?_
    · rintro k _ ⟨rfl, -⟩
      exact .self fun u hu => ⟨⟨rfl, World.Knows.isCompiled hw (Frame.knows_callee _ hu)⟩,
        List.forall₂_same.mpr fun _ _ => ⟨rfl, rfl⟩⟩
    · rintro u _ ⟨rfl, hu⟩ values values' hvalues
      have heq : values = values' :=
        List.forall₂_eq_eq_eq ▸ hvalues.imp fun x y hxy => Prod.ext hxy.1 hxy.2
      rw [heq]
      exact henter u c.site _ _ hu (bindArguments w o target t u values')

theorem walk : Watches w o target Eq (Frame.walk ⟨w, o, t⟩ enter 0 t.instrs)
    ((Frame.watchedWalker ⟨w, o, t⟩ enter').walk 0 t.instrs) := by
  have hframes := frames (σ := σ) w o target t
  refine Lockstep.walkers (L := lockstep w o target)
    (R := fun a a' => a = a' ∧ .action a ∈ t.instrs) ?_
    (fun x => (hframes.operands x).condition hframes.report)
    (fun x => (hframes.operands x).elements hframes.report rfl) 0 ?_
  · rintro index a _ ⟨rfl, ha⟩
    exact act ht hw henter index ha
  · exact List.forall₂_same.mpr fun i hi => Instr.beside_self fun a ha => ⟨rfl, ha ▸ hi⟩

omit henter in
theorem runTemplate (depth : Nat) (chain : List String) :
    Watches w o target Eq (runTemplate w o depth chain t : Run σ Unit)
      (runWatchedTemplate w o depth chain t) := by
  refine (lockstep w o target).runTemplateBy ?_ ?_ ?_ depth chain ht
  · exact fun _ _ _ ht henter => walk ht hw henter
  · exact fun _ => throw _
  · exact fun site u _ _ _ h => within h site u

end Walk

end Watches

/-- Each execution in a run of a compiled template, in the template itself or in a call at any
depth, is by contract, on the target of the context that the run began with. -/
theorem executions_byContract {σ : Type} [Sink σ] {w : World} (hw : w.catalog.Produced)
    (o : RunOptions) {t : Template} (ht : t.IsCompiled) (c : Context) (sink : σ) :
    (run w o t c sink).WatchedAs (runWatched w o t c sink) ∧
      ∀ x ∈ (runWatched w o t c sink).sink.log, x.ByContract w o c.target := by
  cases hfor : c.isFor t with
  | false =>
    simp only [run, runWatched, Outcome.inContext, hfor, Bool.false_eq_true, if_false]
    exact ⟨⟨rfl, rfl, rfl, rfl⟩, List.forall_mem_nil _⟩
  | true =>
    simp only [run, runWatched, Outcome.inContext, hfor, if_true]
    have htarget : (⟨c, sink, []⟩ : RunState σ).context.target = c.target := rfl
    obtain ⟨executions, result, hrun, hagree, -, hcontract⟩ :=
      Watches.runTemplate (o := o) ht hw o.maxDepth [t.name] ⟨c, sink, []⟩ [] htarget
    rw [RunState.withLog] at hrun
    dsimp only at hrun
    rw [hrun]
    exact ⟨⟨hagree.eq.symm, rfl, rfl, rfl⟩, hcontract⟩

/-- An operation is invoked by a template and by the one that it calls; there the second argument
cannot be had. -/
theorem executions_byContract_call :
    let send : Operation := ⟨"send", .unary, fun _ arg => .ok (arg.getD .null)⟩
    let o : ReadOptions := { operations := some ⟨"int", [send]⟩ }
    let source :=
      "<:otx:b:x><:exec:send:x><:exec:send:x.y><.otx><:otx:a><:exec:send:1><:call:b:x=2><.otx>"
    ∃ catalog id r a, readTemplates {} "f" source.toList o = .ok (catalog, id, r) ∧
      r.resolve? "a" = some a ∧
      let w : World := { catalog }
      let c := { Context.fresh a with target := .int 7 }
      let log := (runWatched w {} a c ({} : TextSink)).sink.log
      log.map (fun x => (x.template.name, x.invocations.length)) = [("a", 1), ("b", 1), ("b", 0)] ∧
        ∀ x ∈ log, x.ByContract w {} (.int 7) := by
  intro send o source
  let executed (x : Catalog × RegistryId × Registry) : Option (List (String × Nat)) :=
    (x.2.2.resolve? "a").map fun a =>
      let c := { Context.fresh a with target := .int 7 }
      (runWatched { catalog := x.1 } {} a c ({} : TextSink)).sink.log.map fun x =>
        (x.template.name, x.invocations.length)
  have hexecuted : (readTemplates {} "f" source.toList o).toOption.bind executed =
      some [("a", 1), ("b", 1), ("b", 0)] := by decide +kernel
  cases hread : readTemplates {} "f" source.toList o with
  | error e =>
    rw [hread] at hexecuted
    cases hexecuted
  | ok x =>
    obtain ⟨catalog, id, r⟩ := x
    rw [hread] at hexecuted
    obtain ⟨a, ha, hlog⟩ := Option.map_eq_some_iff.mp hexecuted
    refine ⟨catalog, id, r, a, rfl, ha, hlog, ?_⟩
    have hw : ({ catalog } : World).catalog.Produced := .read .empty hread
    have hknown : ({ catalog } : World).Knows a :=
      .inr ⟨id, r, "a", registry?_of_readTemplates hread, ha⟩
    exact (executions_byContract hw {} (hknown.isCompiled hw)
      { Context.fresh a with target := .int 7 } ({} : TextSink)).2

end TemplateEngine

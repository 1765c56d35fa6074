import TemplateEngine.Proofs.Lockstep.Pairing

/-! A run with its active calls on a stack of its own. What a run knows of its calls from the depth
and the names that it is given is what this stack holds, and the stack is the same after a call as
before it. -/
namespace TemplateEngine

structure ActiveCall where
  callee : Template
  site : SiteId

/-- The active calls of a run of the template named `root`, the outermost first. -/
structure CallStack where
  root : String
  limit : Nat
  calls : List ActiveCall := []

namespace CallStack

def depth (k : CallStack) : Nat :=
  k.calls.length

/-- The names of the templates from the root to the innermost call. -/
def chain (k : CallStack) : List String :=
  k.root :: k.calls.map (·.callee.name)

def add (k : CallStack) (c : ActiveCall) : CallStack :=
  { k with calls := k.calls ++ [c] }

/-- Beyond the limit a call is refused, and does not get onto the stack. -/
def push (k : CallStack) (c : ActiveCall) : Except RunError CallStack :=
  if k.limit ≤ k.depth then .error (.recursionLimit k.limit (k.chain ++ [c.callee.name]))
  else .ok (k.add c)

def pop (k : CallStack) : CallStack :=
  { k with calls := k.calls.dropLast }

@[simp] theorem pop_add (k : CallStack) (c : ActiveCall) : (k.add c).pop = k := by
  simp [add, pop]

@[simp] theorem depth_add (k : CallStack) (c : ActiveCall) : (k.add c).depth = k.depth + 1 := by
  simp [add, depth]

@[simp] theorem chain_add (k : CallStack) (c : ActiveCall) :
    (k.add c).chain = k.chain ++ [c.callee.name] := by
  simp [add, chain]

end CallStack

/-- What happens to the stack in a run: a call gets onto it, or is refused, and it was one stack
before a call and is another one after it. -/
inductive StackStep where
  | pushed (after : CallStack)
  | refused (stack : CallStack) (call : ActiveCall)
  | returned (before after : CallStack)

/-- A sink beside the stack of a run into it, and all that has happened to the stack. -/
structure Stacked (σ : Type) where
  sink : σ
  stack : CallStack
  steps : List StackStep := []

namespace Stacked

variable {σ : Type}

def note (s : Stacked σ) (stack : CallStack) (steps : List StackStep) : Stacked σ :=
  { s with stack, steps := s.steps ++ steps }

instance [Sink σ] : Sink (Stacked σ) where
  write s text :=
    let (sink, taken) := Sink.write s.sink text
    ({ s with sink }, taken)

/-- Makes a call, which is on the stack for as long as it takes, however it ends. -/
def enter (exec : Template → Run (Stacked σ) Unit) : Enter (Stacked σ) :=
  fun callee site bind s =>
    let before := s.sink.stack
    let call : ActiveCall := ⟨callee, site⟩
    match before.push call with
    | .error e =>
      (.error e,
        { s with sink := s.sink.note before [.refused before call, .returned before before] })
    | .ok stack =>
      let body := Run.within site callee do
        bind
        exec callee
      let (result, after) := body.run { s with sink := s.sink.note stack [.pushed stack] }
      let stack := after.sink.stack.pop
      (result, { after with sink := after.sink.note stack [.returned before stack] })

theorem run_enter_refused (exec : Template → Run (Stacked σ) Unit) {u : Template} {site : SiteId}
    (bind : Run (Stacked σ) Unit) {s : RunState (Stacked σ)} {e : RunError}
    (h : s.sink.stack.push ⟨u, site⟩ = .error e) :
    (enter exec u site bind).run.run s =
      (.error e, { s with
        sink := s.sink.note s.sink.stack
          [.refused s.sink.stack ⟨u, site⟩, .returned s.sink.stack s.sink.stack] }) := by
  change enter exec u site bind s = _
  simp only [enter, h]

theorem run_enter_pushed (exec : Template → Run (Stacked σ) Unit) {u : Template} {site : SiteId}
    (bind : Run (Stacked σ) Unit) {s : RunState (Stacked σ)} {stack : CallStack}
    (h : s.sink.stack.push ⟨u, site⟩ = .ok stack) :
    (enter exec u site bind).run.run s =
      let after := (Run.within site u do bind; exec u).run.run
        { s with sink := s.sink.note stack [.pushed stack] }
      (after.1, { after.2 with
        sink := after.2.sink.note after.2.sink.stack.pop
          [.returned s.sink.stack after.2.sink.stack.pop] }) := by
  change enter exec u site bind s = _
  simp only [enter, h]
  rfl

end Stacked

section

variable {σ : Type} [Sink σ] (w : World) (o : RunOptions)

/-- Runs a template. How deep calls are nested is left to the stack; `fuel` has to last for that. -/
def runStackedTemplate : (fuel : Nat) → Template → Run (Stacked σ) Unit
  | 0, _ => pure ()
  | fuel + 1, t => Frame.walk ⟨w, o, t⟩ (Stacked.enter (runStackedTemplate fuel)) 0 t.instrs

/-- Runs a template with its calls on a stack, in a context that was made for it. -/
def runStacked (fuel : Nat) (t : Template) (c : Context) (sink : σ) : Outcome (Stacked σ) :=
  .inContext (runStackedTemplate w o fuel t) t c
    { sink, stack := { root := t.name, limit := o.maxDepth } }

end

/-- What happens to a stack that keeps within its limit: a call is refused when there are as many as
the limit, and after a call the stack is what it was before. -/
inductive StackStep.Balanced (root : String) (limit : Nat) : StackStep → Prop where
  | pushed {calls : List ActiveCall} : calls.length ≤ limit →
    Balanced root limit (.pushed ⟨root, limit, calls⟩)
  | refused {calls : List ActiveCall} (call : ActiveCall) : calls.length = limit →
    Balanced root limit (.refused ⟨root, limit, calls⟩ call)
  | returned {calls : List ActiveCall} : calls.length ≤ limit →
    Balanced root limit (.returned ⟨root, limit, calls⟩ ⟨root, limit, calls⟩)

/-- A run exceeds the call depth exactly if one of the steps is that a call was refused, and names
the calls that were active then and the one that was refused. -/
def Explained {α : Type} (steps : List StackStep) (result : Except RunError α) : Prop :=
  ∀ limit chain, result = .error (.recursionLimit limit chain) ↔
    ∃ stack call, .refused stack call ∈ steps ∧ stack.limit = limit ∧
      chain = stack.chain ++ [call.callee.name]

namespace Explained

variable {α β : Type} {steps more : List StackStep} {result : Except RunError α}

theorem nil (h : ∀ limit chain, result ≠ .error (.recursionLimit limit chain)) :
    Explained [] result := by
  intro limit chain
  simp [h limit chain]

theorem not_refused (h : Explained steps result)
    (hresult : ∀ limit chain, result ≠ .error (.recursionLimit limit chain)) (stack : CallStack)
    (call : ActiveCall) : .refused stack call ∉ steps :=
  fun hmem => hresult _ _ ((h _ _).mpr ⟨stack, call, hmem, rfl, rfl⟩)

theorem append {other : Except RunError β} (h : Explained steps other)
    (hother : ∀ limit chain, other ≠ .error (.recursionLimit limit chain))
    (hmore : Explained more result) : Explained (steps ++ more) result := by
  intro limit chain
  rw [hmore limit chain]
  simp only [List.mem_append, h.not_refused hother, false_or]

/-- That a call begins or ends is nothing that a run would be refused for. -/
theorem enclosed (h : Explained steps result) (stack before after : CallStack) :
    Explained (.pushed stack :: steps ++ [.returned before after]) result := by
  intro limit chain
  rw [h limit chain]
  simp

end Explained

section

variable {σ α β γ δ : Type} {A : α → β → Prop} {B : γ → δ → Prop}

/-- A part of a run beside the same part with the stack `k`, which is left as it was. -/
def Shadows (k : CallStack) (A : α → β → Prop) (m : Run σ α) (m' : Run (Stacked σ) β) : Prop :=
  ∀ (s : RunState σ) (steps : List StackStep), ∃ more result,
    let after := (m.run.run s).2
    m'.run.run { s with sink := ⟨s.sink, k, steps⟩ } =
        (result, { after with sink := ⟨after.sink, k, steps ++ more⟩ }) ∧
      Agree A (m.run.run s).1 result ∧ (∀ step ∈ more, step.Balanced k.root k.limit) ∧
      Explained more (m.run.run s).1

namespace Shadows

variable {k : CallStack}

/-- A part that does nothing to the stack. -/
theorem still {m : Run σ α} {m' : Run (Stacked σ) β}
    (hlimit : ∀ s limit chain, (m.run.run s).1 ≠ .error (.recursionLimit limit chain))
    (h : ∀ (s : RunState σ) (steps : List StackStep), ∃ result,
      let after := (m.run.run s).2
      m'.run.run { s with sink := ⟨s.sink, k, steps⟩ } =
          (result, { after with sink := ⟨after.sink, k, steps⟩ }) ∧
        Agree A (m.run.run s).1 result) :
    Shadows k A m m' := by
  intro s steps
  obtain ⟨result, hrun, hagree⟩ := h s steps
  refine ⟨[], result, ?_, hagree, by simp, .nil (hlimit s)⟩
  simpa using hrun

theorem bind {m : Run σ α} {m' : Run (Stacked σ) β} {f : α → Run σ γ} {f' : β → Run (Stacked σ) δ}
    (hm : Shadows k A m m') (hf : ∀ a b, A a b → Shadows k B (f a) (f' b)) :
    Shadows k B (m >>= f) (m' >>= f') := by
  intro s steps
  obtain ⟨more, result, hrun, hagree, hbalanced, hexplained⟩ := hm s steps
  rw [Run.run_bind, Run.run_bind, hrun]
  generalize m.run.run s = r at hagree hexplained ⊢
  obtain ⟨_, after⟩ := r
  cases hagree with
  | error e =>
    refine ⟨more, .error e, rfl, .error e, hbalanced, fun limit chain => ?_⟩
    simpa using hexplained limit chain
  | ok hab =>
    obtain ⟨rest, result', hrun', hagree', hbalanced', hexplained'⟩ :=
      hf _ _ hab after (steps ++ more)
    refine ⟨more ++ rest, result', ?_, hagree', ?_, hexplained.append nofun hexplained'⟩
    · rw [← List.append_assoc]
      exact hrun'
    · simpa [or_imp, forall_and] using ⟨hbalanced, hbalanced'⟩

theorem fire (e : DebugEvent) : Shadows k Eq (Run.fire e : Run σ Unit) (Run.fire e) :=
  .still nofun fun _ _ => ⟨_, rfl, .ok rfl⟩

theorem throw_refused (hfull : k.depth = k.limit) (exec : Template → Run (Stacked σ) Unit)
    (u : Template) (site : SiteId) (bind : Run (Stacked σ) Unit) :
    Shadows k Eq (throw (.recursionLimit k.limit (k.chain ++ [u.name])) : Run σ Unit)
      (Stacked.enter exec u site bind) := by
  intro s steps
  have hpush : k.push ⟨u, site⟩ = .error (.recursionLimit k.limit (k.chain ++ [u.name])) := by
    rw [CallStack.push, if_pos (Nat.le_of_eq hfull.symm)]
  refine ⟨[.refused k ⟨u, site⟩, .returned k k], .error _, ?_, .error _, ?_, fun limit chain => ?_⟩
  · rw [Stacked.run_enter_refused exec bind hpush]
    rfl
  · simp only [List.mem_cons, List.not_mem_nil, or_false]
    rintro step (rfl | rfl)
    · exact .refused _ hfull
    · exact .returned (Nat.le_of_eq hfull)
  · change Except.error _ = _ ↔ _
    simp [eq_comm]

theorem within_pushed {exec : Template → Run (Stacked σ) Unit} {u : Template} {site : SiteId}
    (hroom : k.depth < k.limit) {bind : Run (Stacked σ) Unit} {body : Run σ Unit}
    (h : Shadows (k.add ⟨u, site⟩) Eq body do bind; exec u) :
    Shadows k Eq (Run.within site u body) (Stacked.enter exec u site bind) := by
  intro s steps
  have hpush : k.push ⟨u, site⟩ = .ok (k.add ⟨u, site⟩) := by
    rw [CallStack.push, if_neg (Nat.not_le_of_lt hroom)]
  have hdepth : (k.add ⟨u, site⟩).depth ≤ k.limit := by
    rw [CallStack.depth_add]
    exact hroom
  obtain ⟨more, result, hrun, hagree, hbalanced, hexplained⟩ :=
    h { s with context := s.context.enter site u } (steps ++ [.pushed (k.add ⟨u, site⟩)])
  refine ⟨.pushed (k.add ⟨u, site⟩) :: more ++ [.returned k k], result, ?_, hagree, ?_,
    hexplained.enclosed _ _ _⟩
  · rw [Stacked.run_enter_pushed exec bind hpush, Run.run_within, Run.run_within]
    dsimp only [Stacked.note] at hrun ⊢
    rw [hrun]
    simp
  · simp only [List.cons_append, List.mem_cons, List.mem_append, List.not_mem_nil, or_false]
    rintro step (rfl | hmem | rfl)
    · exact .pushed hdepth
    · exact hbalanced step hmem
    · exact .returned (Nat.le_of_lt hroom)

variable [Sink σ]

theorem emit (text : String) :
    Shadows k Eq (Run.emit text : Run σ Unit) (Run.emit text : Run (Stacked σ) Unit) := by
  apply still
  · intro s limit chain
    rw [Run.run_emit]
    split <;> simp
  · intro s steps
    rw [Run.run_emit, Run.run_emit]
    exact ⟨_, rfl, .self fun _ _ => rfl⟩

def lockstep (k : CallStack) : Lockstep σ (Stacked σ) where
  contexts := Eq
  Rel := Shadows k
  pure h := .still nofun fun _ _ => ⟨_, rfl, .ok h⟩
  bind := .bind
  get h := fun s steps => h s { s with sink := ⟨s.sink, k, steps⟩ } rfl s steps
  put h := .still nofun fun _ _ => ⟨_, by subst h; rfl, .ok rfl⟩
  emit := .emit
  store slot v := .still nofun fun _ _ => ⟨_, rfl, .ok rfl⟩

/-- A template beside itself, where the stack is as deep as the depth has been used up. -/
theorem runTemplate (w : World) (o : RunOptions) {depth fuel : Nat} (hfuel : depth < fuel)
    {k : CallStack} (hlimit : k.limit = o.maxDepth) (hdepth : k.depth + depth = k.limit)
    (t : Template) :
    Shadows k Eq (runTemplate w o depth k.chain t : Run σ Unit)
      (runStackedTemplate w o fuel t) := by
  induction depth generalizing fuel k t with
  | zero =>
    obtain ⟨fuel, rfl⟩ := Nat.exists_eq_add_one.mpr hfuel
    rw [runTemplate_zero, runStackedTemplate]
    refine (lockstep k).walk_of_eq rfl fire w rfl t ?_ 0 t.instrs
    intro u site values
    rw [← hlimit]
    exact throw_refused hdepth _ u site _
  | succ depth ih =>
    obtain ⟨fuel, rfl⟩ := Nat.exists_eq_add_one.mpr (Nat.zero_lt_of_lt hfuel)
    have hless : depth < fuel := by omega
    rw [runTemplate_succ, runStackedTemplate]
    refine (lockstep k).walk_of_eq rfl fire w rfl t ?_ 0 t.instrs
    intro u site values
    apply within_pushed (by omega)
    refine bind ((lockstep _).bindArguments_of_eq rfl fire w rfl t u values) fun _ _ _ => ?_
    rw [← CallStack.chain_add k ⟨u, site⟩]
    refine ih hless (k := k.add ⟨u, site⟩) hlimit ?_ u
    rw [CallStack.depth_add, Nat.add_assoc, Nat.add_comm 1]
    exact hdepth

end Shadows

/-- A run of the template named `root`, and that run with its calls on a stack, which is empty in
the end and was balanced all the time. -/
structure OnStack (root : String) (limit : Nat) (r : Outcome σ) (s : Outcome (Stacked σ)) :
    Prop where
  result : s.result = r.result
  context : s.context = r.context
  events : s.events = r.events
  sink : s.sink.sink = r.sink
  stack : s.sink.stack = { root, limit }
  balanced : ∀ step ∈ s.sink.steps, step.Balanced root limit
  explained : Explained s.sink.steps r.result

theorem run_onStack [Sink σ] (w : World) (o : RunOptions) {fuel : Nat} (hfuel : o.maxDepth < fuel)
    (t : Template) (c : Context) (sink : σ) :
    OnStack t.name o.maxDepth (run w o t c sink) (runStacked w o fuel t c sink) := by
  cases hfor : c.isFor t with
  | false =>
    simp only [run, runStacked, Outcome.inContext, hfor, Bool.false_eq_true, if_false]
    exact ⟨rfl, rfl, rfl, rfl, rfl, nofun, .nil nofun⟩
  | true =>
    simp only [run, runStacked, Outcome.inContext, hfor, if_true]
    have hshadows := Shadows.runTemplate (σ := σ) w o hfuel
      (k := { root := t.name, limit := o.maxDepth }) rfl (Nat.zero_add _) t
    obtain ⟨more, result, hrun, hagree, hbalanced, hexplained⟩ := hshadows ⟨c, sink, []⟩ []
    dsimp only at hrun
    rw [hrun]
    exact ⟨hagree.eq.symm, rfl, rfl, rfl, rfl, hbalanced, hexplained⟩

end

end TemplateEngine

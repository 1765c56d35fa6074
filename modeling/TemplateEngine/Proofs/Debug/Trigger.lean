import TemplateEngine.Proofs.Lockstep.Contexts

/-! The trigger of a context. It decides what debug markers report and to whom, and nothing else. -/
namespace TemplateEngine

mutual

/-- A context without its trigger, and without those of the calls in it. -/
def Context.untraced : Context → Context
  | ⟨template, name, slots, values, subs, target, _⟩ =>
    ⟨template, name, slots, values, untracedSubs subs, target, none⟩

def untracedSubs : List (Option Context) → List (Option Context)
  | [] => []
  | sub :: rest => untracedSub sub :: untracedSubs rest

def untracedSub : Option Context → Option Context
  | none => none
  | some c => some c.untraced

end

theorem untracedSub_eq_map (sub : Option Context) :
    untracedSub sub = sub.map Context.untraced := by
  cases sub <;> simp [untracedSub]

theorem untracedSubs_eq_map (subs : List (Option Context)) :
    untracedSubs subs = subs.map (Option.map Context.untraced) := by
  induction subs with
  | nil => simp [untracedSubs]
  | cons sub rest ih => simp [untracedSubs, untracedSub_eq_map, ih]

namespace Context

theorem untraced_eq (c : Context) :
    c.untraced = { c with subs := c.subs.map (Option.map untraced), trigger := none } := by
  cases c
  simp only [untraced, untracedSubs_eq_map]

/-! What a run does to a context does not depend on any trigger. -/

theorem untraced_store (c : Context) (slot : SlotId) (v : Value) :
    (c.store slot v).untraced = c.untraced.store slot v := by
  simp only [untraced_eq, store]

theorem untraced_set (c : Context) (name : String) (v : Value) :
    (c.set name v).map untraced = c.untraced.set name v := by
  unfold set setSlot
  simp only [untraced_eq]
  split
  · split <;> simp [Except.map, untraced_eq, store]
  · rfl

theorem untraced_kept (c : Context) (site : SiteId) (t : Template) :
    c.untraced.subs[site]?.join.filter (·.isFor t) =
      (c.subs[site]?.join.filter (·.isFor t)).map untraced := by
  have hjoin : c.untraced.subs[site]?.join = c.subs[site]?.join.map untraced := by
    simp only [untraced_eq, List.getElem?_map]
    cases c.subs[site]? <;> rfl
  have hfor (sub : Context) : sub.untraced.isFor t = sub.isFor t := by
    simp only [untraced_eq, isFor]
  rw [hjoin]
  cases c.subs[site]?.join with
  | none => rfl
  | some sub => cases hsub : sub.isFor t <;> simp [Option.filter, hfor, hsub]

theorem untraced_enter (c : Context) (site : SiteId) (t : Template) :
    (c.enter site t).untraced = c.untraced.enter site t := by
  unfold enter
  rw [untraced_kept]
  cases c.subs[site]?.join.filter (·.isFor t) with
  | none => simp [untraced_eq, fresh]
  | some sub => simp [untraced_eq, clearSlots]

theorem map_keep (sub : Context) (subs : List (Option Context)) (site : SiteId) :
    (leave.keep sub subs site).map (Option.map untraced) =
      leave.keep sub.untraced (subs.map (Option.map untraced)) site := by
  fun_induction leave.keep sub subs site with
  | case1 => rfl
  | case2 site ih => simp [leave.keep, ih]
  | case3 first rest => rfl
  | case4 first rest site ih => simp [leave.keep, ih]

theorem untraced_leave (c : Context) (site : SiteId) (sub : Context) :
    (c.leave site sub).untraced = c.untraced.leave site sub.untraced := by
  rw [untraced_eq, untraced_eq c]
  simp only [leave, map_keep]

end Context

/-- Contexts that differ in their triggers at most, also those of calls. -/
def SameButTraced (k k' : Context) : Prop :=
  k.untraced = k'.untraced

/-- A trigger is installed, or taken away. -/
theorem sameButTraced_trigger (k : Context) (trigger : Option TriggerId) :
    SameButTraced k { k with trigger } := by
  rw [SameButTraced, k.untraced_eq, Context.untraced_eq]

namespace SameButTraced

variable {k k' : Context} (h : SameButTraced k k')
include h

theorem values : k.values = k'.values := by
  have h := congrArg Context.values h
  rwa [Context.untraced_eq, Context.untraced_eq] at h

theorem target : k.target = k'.target := by
  have h := congrArg Context.target h
  rwa [Context.untraced_eq, Context.untraced_eq] at h

theorem template : k.template = k'.template := by
  have h := congrArg Context.template h
  rwa [Context.untraced_eq, Context.untraced_eq] at h

theorem store (slot : SlotId) (v : Value) : SameButTraced (k.store slot v) (k'.store slot v) := by
  rw [SameButTraced, k.untraced_store, k'.untraced_store, h]

theorem set (name : String) (v : Value) : Agree SameButTraced (k.set name v) (k'.set name v) := by
  have hset := k.untraced_set name v
  rw [h, ← k'.untraced_set name v] at hset
  generalize k.set name v = r, k'.set name v = r' at hset ⊢
  cases r with
  | error e =>
    cases r' with
    | error e' =>
      obtain rfl := Except.error.inj hset
      exact .error e
    | ok c' => cases hset
  | ok c =>
    cases r' with
    | error e' => cases hset
    | ok c' => exact .ok (Except.ok.inj hset)

theorem enter (site : SiteId) (t : Template) :
    SameButTraced (k.enter site t) (k'.enter site t) := by
  rw [SameButTraced, k.untraced_enter, k'.untraced_enter, h]

theorem leave {sub sub' : Context} (hsub : SameButTraced sub sub') (site : SiteId) :
    SameButTraced (k.leave site sub) (k'.leave site sub') := by
  rw [SameButTraced, k.untraced_leave, k'.untraced_leave, h, hsub]

end SameButTraced

theorem SameButTraced.sameSight : SameSight SameButTraced where
  values h := h.values
  target h := h.target
  store slot v h := h.store slot v

/-- Whatever was reported. -/
def AnyEvents (_ _ : List DebugEvent) : Prop :=
  True

section

variable {σ : Type}

/-- A debug marker does nothing but report. -/
theorem Frame.run_debug (f : Frame) (index : Nat) (value : Option Operand) (compare : Option String)
    (s : RunState σ) :
    ∃ events, (f.debug index value compare).run.run s = (.ok (), { s with events }) := by
  let named := value.map fun x => ((f.scope s.context).resolve x).toOption.getD .null
  obtain ⟨⟨template, name, slots, values, subs, target, trigger⟩, sink, events⟩ := s
  cases trigger with
  | none => exact ⟨events, rfl⟩
  | some trigger =>
    change ∃ events', (if compare.all (· == (named.map Value.render).getD "") then
        Run.fire ⟨trigger, f.template.name, index, named, compare⟩
      else pure () : Run σ Unit).run.run _ = (.ok (), { context := _, sink, events := events' })
    split
    · exact ⟨_, rfl⟩
    · exact ⟨events, rfl⟩

namespace InStep

variable {C : Context → Context → Prop} {f f' : Frame} {index index' : Nat}
  {value value' : Option Operand} {compare compare' : Option String}

theorem debug : InStep C AnyEvents Eq (f.debug index value compare : Run σ Unit)
    (f'.debug index' value' compare') := by
  intro s s' hs
  obtain ⟨events, hrun⟩ := f.run_debug index value compare s
  obtain ⟨events', hrun'⟩ := f'.run_debug index' value' compare' s'
  rw [hrun, hrun']
  exact ⟨.ok rfl, hs.context, hs.sink, trivial⟩

theorem debug_pure :
    InStep C AnyEvents Eq (f.debug index value compare : Run σ Unit) (pure ()) := by
  intro s s' hs
  obtain ⟨events, hrun⟩ := f.run_debug index value compare s
  rw [hrun]
  exact ⟨.ok rfl, hs.context, hs.sink, trivial⟩

theorem within_anyTrigger {body body' : Run σ Unit}
    (h : InStep SameButTraced AnyEvents Eq body body') (site : SiteId) (u : Template) :
    InStep SameButTraced AnyEvents Eq (Run.within site u body) (Run.within site u body') := by
  intro s s' hs
  obtain ⟨hagree, hcontext, hsink, hevents⟩ :=
    h { s with context := s.context.enter site u } { s' with context := s'.context.enter site u }
      ⟨hs.context.enter site u, hs.sink, hs.events⟩
  exact ⟨hagree, hs.context.leave hcontext site, hsink, hevents⟩

end InStep

variable [Sink σ]

/-- A template runs in step with itself, whatever the triggers are. -/
def Pairing.anyTrigger (w : World) (o : RunOptions) :
    Pairing w w o o (Run.within : Within σ) (Run.within : Within σ) :=
  .same (InStep.lockstep SameButTraced.sameSight AnyEvents) (fun _ => True)
    (fun _ => InStep.frames_of_debug _ rfl rfl rfl rfl rfl fun _ _ _ => InStep.debug)
    (fun _ _ => InStep.throw _) (fun _ _ name v h => SameButTraced.set h name v)
    (fun t k k' c h => by
      rw [Frame.callee_of_values _ h.values]
      exact .self fun _ _ => ⟨rfl, trivial⟩)
    (fun site u _ _ _ h => InStep.within_anyTrigger h site u)

/-- A run does the same whatever the trigger of its context is, and leaves the same slot values in
its context and in those of its calls. -/
theorem run_anyTrigger (w : World) (o : RunOptions) (t : Template) {c c' : Context}
    (h : SameButTraced c c') (sink : σ) :
    let r := run w o t c sink
    let r' := run w o t c' sink
    r.result = r'.result ∧ r.sink = r'.sink ∧ SameButTraced r.context r'.context := by
  have hfor : c'.isFor t = c.isFor t := by
    simp only [Context.isFor, h.template]
  intro r r'
  cases hfor' : c.isFor t with
  | false =>
    simp only [r, r', run, Outcome.inContext, hfor, hfor', Bool.false_eq_true, if_false,
      Outcome.ofRun, h.template]
    exact ⟨trivial, trivial, h⟩
  | true =>
    simp only [r, r', run, Outcome.inContext, hfor, hfor', if_true]
    have hruns := (Pairing.anyTrigger (σ := σ) w o).runTemplateWith rfl o.maxDepth [t.name]
      (t := t) ⟨rfl, trivial⟩
    obtain ⟨hagree, hafter⟩ := hruns ⟨c, sink, []⟩ ⟨c', sink, []⟩ ⟨h, rfl, trivial⟩
    exact ⟨hagree.eq, hafter.sink, hafter.context⟩

end

end TemplateEngine

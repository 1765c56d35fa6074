import TemplateEngine.Proofs.Lockstep.Pairing

/-! Runs into the same sink whose contexts are not the same. What the contexts have to agree on is
what a template can see of them. -/
namespace TemplateEngine

/-- States that are the same but for their contexts and their events, and those are related. -/
structure SameBut (C : Context → Context → Prop) (E : List DebugEvent → List DebugEvent → Prop)
    {σ : Type} (s s' : RunState σ) : Prop where
  context : C s.context s'.context
  sink : s.sink = s'.sink
  events : E s.events s'.events

/-- From states that are the same but for their contexts and events the parts come to answers and
states that are so, too. -/
def InStep (C : Context → Context → Prop) (E : List DebugEvent → List DebugEvent → Prop)
    {σ α β : Type} (A : α → β → Prop) (m : Run σ α) (m' : Run σ β) : Prop :=
  ∀ s s', SameBut C E s s' → Agree A (m.run.run s).1 (m'.run.run s').1 ∧
    SameBut C E (m.run.run s).2 (m'.run.run s').2

/-- In related contexts a template sees the same, and goes on to do so when it stores a value. -/
structure SameSight (C : Context → Context → Prop) : Prop where
  values {k k' : Context} : C k k' → k.values = k'.values
  target {k k' : Context} : C k k' → k.target = k'.target
  store {k k' : Context} (slot : SlotId) (v : Value) : C k k' → C (k.store slot v) (k'.store slot v)

namespace InStep

variable {C : Context → Context → Prop} {E : List DebugEvent → List DebugEvent → Prop}
  {σ α β γ δ : Type} {A : α → β → Prop} {B : γ → δ → Prop}

theorem bind {m : Run σ α} {m' : Run σ β} {k : α → Run σ γ} {k' : β → Run σ δ}
    (hm : InStep C E A m m') (hk : ∀ a b, A a b → InStep C E B (k a) (k' b)) :
    InStep C E B (m >>= k) (m' >>= k') := by
  intro s s' hs
  obtain ⟨hagree, hafter⟩ := hm s s' hs
  rw [Run.run_bind, Run.run_bind]
  generalize m.run.run s = r, m'.run.run s' = r' at hagree hafter ⊢
  obtain ⟨result, after⟩ := r
  obtain ⟨result', after'⟩ := r'
  cases hagree with
  | error e => exact ⟨.error e, hafter⟩
  | ok hab => exact hk _ _ hab after after' hafter

theorem throw (e : RunError) : InStep C E A (throw e : Run σ α) (throw e) :=
  fun _ _ hs => ⟨.error e, hs⟩

theorem fire (e : DebugEvent) : InStep C Eq Eq (Run.fire e) (Run.fire e : Run σ Unit) := by
  intro s s' hs
  refine ⟨.ok rfl, hs.context, hs.sink, ?_⟩
  exact congrArg (· ++ [e]) hs.events

variable [Sink σ]

theorem emit (text : String) : InStep C E Eq (Run.emit text) (Run.emit text : Run σ Unit) := by
  intro s s' hs
  rw [Run.run_emit, Run.run_emit, ← hs.sink]
  exact ⟨.self fun _ _ => rfl, hs.context, rfl, hs.events⟩

def lockstep (hC : SameSight C) (E : List DebugEvent → List DebugEvent → Prop) : Lockstep σ σ where
  contexts := C
  Rel := InStep C E
  pure h := fun _ _ hs => ⟨.ok h, hs⟩
  bind := .bind
  get h := fun s s' hs => h s s' hs.context s s' hs
  put h := fun _ _ hs => ⟨.ok rfl, h, hs.sink, hs.events⟩
  emit := .emit
  store slot v := fun _ _ hs => ⟨.ok rfl, hC.store slot v hs.context, hs.sink, hs.events⟩

section Frames

variable {f f' : Frame} (hC : SameSight C) (hhost : f.world.host = f'.world.host)
  (hslots : f.template.slots = f'.template.slots) (harena : f.template.arena = f'.template.arena)
include hC hhost hslots harena

theorem scope_eq {k k' : Context} (h : C k k') : f.scope k = f'.scope k' := by
  rw [Frame.scope, Frame.scope, hhost, hslots, harena, hC.values h, hC.target h]

variable (hoperations : f.template.operations = f'.template.operations)
  (hplaceholders : f.options.placeholders = f'.options.placeholders)
include hoperations hplaceholders

theorem frames_of_debug (hdebug : ∀ index value compare,
      InStep C E Eq (f.debug index value compare : Run σ Unit) (f'.debug index value compare)) :
    (InStep.lockstep hC E : Lockstep σ σ).Frames f f' where
  scope := scope_eq hC hhost hslots harena
  host := hhost
  operations := hoperations
  report := Lockstep.report_of_placeholders hplaceholders
  debug := hdebug

theorem frames (hname : f.template.name = f'.template.name)
    (htrigger : ∀ k k', C k k' → k.trigger = k'.trigger) :
    (InStep.lockstep hC Eq : Lockstep σ σ).Frames f f' :=
  frames_of_debug hC hhost hslots harena hoperations hplaceholders
    (Lockstep.debug_of_fire (L := InStep.lockstep hC Eq)
      (fun _ _ h => scope_eq hC hhost hslots harena h) hname htrigger fire)

end Frames

end InStep

end TemplateEngine

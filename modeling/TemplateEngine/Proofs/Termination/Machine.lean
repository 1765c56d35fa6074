import TemplateEngine.Proofs.Nested.Evaluation
import TemplateEngine.Proofs.Nested.Jumps

/-! Carrying out a program by its jumps, step after step for as long as the fuel lasts. Here nothing
bounds where a jump leads or how often a loop body runs, so that this ends is a fact about compiled
programs. -/
namespace TemplateEngine

/-- A part of a run that may not end: it gives nothing if its fuel is spent. -/
abbrev Fueled (σ : Type) := ExceptT RunError (StateT (RunState σ) Option)

namespace Fueled

variable {σ : Type}

def spent {α : Type} : Fueled σ α :=
  ExceptT.mk fun _ => none

def lift {α : Type} (m : Run σ α) : Fueled σ α :=
  ExceptT.mk fun s => some (m.run.run s)

def within (site : SiteId) (callee : Template) (body : Fueled σ Unit) : Fueled σ Unit :=
  ExceptT.mk fun s => do
    let (result, after) ← body.run.run { s with context := s.context.enter site callee }
    return (result, { after with context := s.context.leave site after.context })

def passes (header : Loop) (body : Fueled σ Unit) : List Value → Fueled σ Unit
  | [] => pure ()
  | v :: rest => do
    lift (Run.store header.entry v)
    lift (Run.store header.next (rest.head?.getD .null))
    body
    passes header body rest

variable [Sink σ]

def call (f : Frame) (enter : Template → SiteId → Run σ Unit → Fueled σ Unit) (c : Call) :
    Fueled σ Unit := do
  match f.callee (← get).context c.callee with
  | .error e => lift (f.report e)
  | .ok callee =>
    let args ← lift (f.evaluate c.args)
    enter callee c.site (f.bindArguments callee args)

/-- Calls the callee if the depth allows it; `exec` carries out its instructions. -/
def enter (o : RunOptions)
    (exec : (depth : Nat) → List String → Template → (place stop : Nat) → Fueled σ Unit) :
    (depth : Nat) → List String → Template → SiteId → Run σ Unit → Fueled σ Unit
  | 0, chain, callee, _, _ => throw (.recursionLimit o.maxDepth (chain ++ [callee.name]))
  | depth + 1, chain, callee, site, bind =>
    within site callee do
      lift bind
      exec depth (chain ++ [callee.name]) callee 0 callee.instrs.length

end Fueled

section Machine

variable {σ : Type} [Sink σ] (w : World) (o : RunOptions)

/-- Carries out the instructions of a template from `place` up to `stop`. Each instruction takes one
from the fuel; `depth` more calls may be nested, and `chain` names the templates that are running.
-/
def execRange : (fuel depth : Nat) → (chain : List String) → Template → (place stop : Nat) →
    Fueled σ Unit
  | 0, _, _, _, _, _ => .spent
  | fuel + 1, depth, chain, t, place, stop =>
    let f : Frame := ⟨w, o, t⟩
    if place < stop then
      match t.instrs[place]? with
      | none => pure ()
      | some (.action (.call c)) => do
        Fueled.call f (Fueled.enter o (execRange fuel) depth chain) c
        execRange fuel depth chain t (place + 1) stop
      | some (.action a) => do
        Fueled.lift (f.act (fun _ _ _ => pure ()) place a)
        execRange fuel depth chain t (place + 1) stop
      | some (.branch _ cond next n) => do
        if ← Fueled.lift (f.condition cond) then
          execRange fuel depth chain t (place + 1) (place + next)
          execRange fuel depth chain t (place + n) stop
        else
          execRange fuel depth chain t (place + next) stop
      | some .otherwise | some .endLoop => execRange fuel depth chain t (place + 1) stop
      | some (.loop header n) => do
        Fueled.passes header (execRange fuel depth chain t (place + 1) (place + n - 1))
          (← Fueled.lift (f.elements header.container))
        execRange fuel depth chain t (place + n) stop
    else pure ()

/-- Runs a template by its jumps in a context that was made for it. -/
def runFueled (fuel : Nat) (t : Template) (c : Context) (sink : σ) : Option (Outcome σ) :=
  Option.map .ofRun <|
    if c.isFor t then
      (execRange w o fuel o.maxDepth [t.name] t 0 t.instrs.length).run.run { context := c, sink }
    else some (.error (.contextMismatch t.name t.id c.template), { context := c, sink })

end Machine

/-- With enough fuel `F` does the same as `r`, and more fuel changes nothing. How much is enough may
depend on the state. -/
def Settles {σ α : Type} (F : Nat → Fueled σ α) (r : Run σ α) : Prop :=
  ∀ s, ∃ fuel, ∀ more, fuel ≤ more → (F more).run.run s = some (r.run.run s)

namespace Settles

variable {σ α β : Type} {F : Nat → Fueled σ α} {r : Run σ α}

theorem lift (m : Run σ α) : Settles (fun _ => .lift m) m :=
  fun _ => ⟨0, fun _ _ => rfl⟩

theorem pure (a : α) : Settles (σ := σ) (fun _ => pure a) (pure a) :=
  fun _ => ⟨0, fun _ _ => rfl⟩

theorem bind {G : α → Nat → Fueled σ β} {k : α → Run σ β} (hF : Settles F r)
    (hG : ∀ a, Settles (G a) (k a)) :
    Settles (fun fuel => F fuel >>= fun a => G a fuel) (r >>= k) := by
  intro s
  obtain ⟨fuel, hfuel⟩ := hF s
  cases hr : r.run.run s with
  | mk result s' =>
    cases result with
    | error e =>
      refine ⟨fuel, ?_⟩
      intro more hmore
      simp only [ExceptT.run_bind, StateT.run_bind, hfuel more hmore, hr, Option.bind_eq_bind,
        Option.bind_some]
      rfl
    | ok a =>
      obtain ⟨fuel', hfuel'⟩ := hG a s'
      refine ⟨max fuel fuel', ?_⟩
      intro more hmore
      have hfirst : fuel ≤ more := by omega
      have hsecond : fuel' ≤ more := by omega
      simp only [ExceptT.run_bind, StateT.run_bind, hfuel more hfirst, hr, Option.bind_eq_bind,
        Option.bind_some, hfuel' more hsecond]
      rfl

theorem step {F' : Nat → Fueled σ α} (hF : Settles F r) (h : ∀ fuel, F' (fuel + 1) = F fuel) :
    Settles F' r := by
  intro s
  obtain ⟨fuel, hfuel⟩ := hF s
  refine ⟨fuel + 1, ?_⟩
  intro more hmore
  cases more with
  | zero => omega
  | succ more =>
    have hless : fuel ≤ more := by omega
    rw [h, hfuel more hless]

theorem within {F : Nat → Fueled σ Unit} {r : Run σ Unit} (hF : Settles F r) (site : SiteId)
    (callee : Template) :
    Settles (fun fuel => .within site callee (F fuel)) (Run.within site callee r) := by
  intro s
  obtain ⟨fuel, hfuel⟩ := hF { s with context := s.context.enter site callee }
  refine ⟨fuel, ?_⟩
  intro more hmore
  change ((F more).run.run _ >>= _) = _
  rw [hfuel more hmore]
  rfl

theorem passes {F : Nat → Fueled σ Unit} {r : Run σ Unit} (hF : Settles F r) (header : Loop)
    (items : List Value) :
    Settles (fun fuel => .passes header (F fuel) items) (Frame.passes header r items) := by
  induction items with
  | nil => exact .pure ()
  | cons v rest ih =>
    apply bind (lift _)
    intro _
    apply bind (lift _)
    intro _
    apply bind hF
    intro _
    exact ih

/-- A call settles if each template that it can end up in does. -/
theorem call [Sink σ] {f : Frame} {E : Nat → Template → SiteId → Run σ Unit → Fueled σ Unit}
    {enter : Enter σ} (henter : ∀ u, f.world.Knows u → ∀ site bind,
      Settles (fun fuel => E fuel u site bind) (enter u site bind)) (c : Call) :
    Settles (fun fuel => .call f (E fuel) c) (f.call enter c) := by
  have hget : Settles (fun _ => get) (get : Run σ (RunState σ)) := fun _ => ⟨0, fun _ _ => rfl⟩
  apply bind hget
  intro s
  cases hu : f.callee s.context c.callee with
  | error e => exact lift _
  | ok u =>
    apply bind (lift _)
    intro args
    exact henter u (f.knows_callee hu) _ _

end Settles

end TemplateEngine

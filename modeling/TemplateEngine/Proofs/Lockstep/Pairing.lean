import TemplateEngine.Proofs.Lockstep.Basic

/-! Whole templates in step, with the templates that they call. -/
namespace TemplateEngine

namespace Frame

/-- Puts one argument into the context of a call. -/
def bindArgument {σ : Type} [Sink σ] (f : Frame) (callee : Template) (a : Argument) (v : Value) :
    Run σ Unit := do
  match a.slot with
  | some slot => Run.store slot v
  | none =>
    match (← get).context.set a.name v with
    | .ok context => modify fun s => { s with context }
    | .error _ => f.report ⟨a.name, .unknownParameter callee.name a.name⟩

/-- A call depends on the context by what its slots hold. -/
theorem callee_of_values (f : Frame) {k k' : Context} (h : k.values = k'.values) (c : Callee) :
    f.callee k c = f.callee k' c := by
  cases c with
  | held slot => rw [callee, callee, Context.slot?, Context.slot?, h]
  | _ => rfl

theorem bindArguments_cons {σ : Type} [Sink σ] (f : Frame) (callee : Template) (a : Argument)
    (v : Value) (rest : List (Argument × Value)) :
    (f.bindArguments callee ((a, v) :: rest) : Run σ Unit) = (do
      f.bindArgument callee a v
      f.bindArguments callee rest) := by
  rw [bindArguments, bindArgument]
  cases a.slot with
  | some slot => rfl
  | none =>
    dsimp only
    rw [bind_assoc]
    congr 1
    funext s
    cases s.context.set a.name v <;> rfl

end Frame

namespace Lockstep

variable {σ τ : Type} [Sink σ] [Sink τ] {L : Lockstep σ τ} {f f' : Frame}

theorem bindArguments {u u' : Template} {B : Argument × Value → Argument × Value → Prop}
    (hbind : ∀ x y, B x y → L.Rel Eq (f.bindArgument u x.1 x.2) (f'.bindArgument u' y.1 y.2))
    {values values' : List (Argument × Value)} (h : List.Forall₂ B values values') :
    L.Rel Eq (f.bindArguments u values) (f'.bindArguments u' values') := by
  induction h with
  | nil => exact L.pure rfl
  | cons hxy _ ih =>
    rw [Frame.bindArguments_cons, Frame.bindArguments_cons]
    exact L.bind (hbind _ _ hxy) fun _ _ _ => ih

/-- Arguments that go to the same slot, or by the same name. -/
theorem bindArgument_same (hreport : ∀ e, L.Rel Eq (f.report e) (f'.report e))
    (hset : ∀ k k' name v, L.contexts k k' → Agree L.contexts (k.set name v) (k'.set name v))
    {u u' : Template} (hu : u.name = u'.name) {a a' : Argument} (hname : a.name = a'.name)
    (hslot : a.slot = a'.slot) (v : Value) :
    L.Rel Eq (f.bindArgument u a v) (f'.bindArgument u' a' v) := by
  unfold Frame.bindArgument
  rw [← hslot, ← hname, ← hu]
  split
  · exact L.store _ v
  · apply L.get
    intro s s' hcontexts
    generalize s.context.set a.name v = r, s'.context.set a.name v = r',
      hset _ _ a.name v hcontexts = hagree
    cases hagree with
    | error e => exact hreport _
    | ok hk => exact L.put hk

section Same

variable (hcontexts : L.contexts = Eq) (hfire : ∀ e, L.Rel Eq (Run.fire e) (Run.fire e)) (w : World)
  {o o' : RunOptions} (hplaceholders : o.placeholders = o'.placeholders) (t : Template)
include hcontexts hfire hplaceholders

theorem bindArguments_of_eq (u : Template) (values : List (Argument × Value)) :
    L.Rel Eq (Frame.bindArguments ⟨w, o, t⟩ u values)
      (Frame.bindArguments ⟨w, o', t⟩ u values) := by
  refine bindArguments (B := Eq) ?_ (List.forall₂_same.mpr fun _ _ => rfl)
  rintro x _ rfl
  have hframes := frames_of_eq hcontexts hfire w hplaceholders t
  refine bindArgument_same hframes.report ?_ rfl rfl rfl x.2
  rw [hcontexts]
  rintro k _ name v rfl
  exact Agree.self fun _ _ => rfl

/-- A program beside itself, where calls are made in different ways. -/
theorem walk_of_eq {enter : Enter σ} {enter' : Enter τ}
    (henter : ∀ u site values, L.Rel Eq (enter u site (Frame.bindArguments ⟨w, o, t⟩ u values))
      (enter' u site (Frame.bindArguments ⟨w, o', t⟩ u values))) (index : Nat) (is : List Instr) :
    L.Rel Eq (Frame.walk ⟨w, o, t⟩ enter index is) (Frame.walk ⟨w, o', t⟩ enter' index is) := by
  refine walk_self (frames_of_eq hcontexts hfire w hplaceholders t) ?_ henter index is
  rw [hcontexts]
  rintro k _ c rfl
  cases c <;> rfl

end Same

end Lockstep

/-- Templates that stand for each other in two runs, and how the runs of such templates are
compared. -/
structure Pairing {σ τ : Type} [Sink σ] [Sink τ] (w w' : World) (o o' : RunOptions)
    (within : Within σ) (within' : Within τ) where
  Pair : Template → Template → Prop
  step : Template → Template → Lockstep σ τ
  Calls : Template → Template → Call → Call → Prop
  name {t t' : Template} : Pair t t' → t.name = t'.name
  report {t t' : Template} : Pair t t' → ∀ e,
    (step t t').Rel Eq (Frame.report ⟨w, o, t⟩ e) (Frame.report ⟨w', o', t'⟩ e)
  walk {t t' : Template} {enter : Enter σ} {enter' : Enter τ} : Pair t t' →
    (∀ c c', Calls t t' c c' →
      (step t t').Rel Eq (Frame.call ⟨w, o, t⟩ enter c) (Frame.call ⟨w', o', t'⟩ enter' c')) →
    (step t t').Rel Eq (Frame.walk ⟨w, o, t⟩ enter 0 t.instrs)
      (Frame.walk ⟨w', o', t'⟩ enter' 0 t'.instrs)
  site {t t' : Template} {c c' : Call} : Calls t t' c c' → c.site = c'.site
  refuse {t t' : Template} (limit : Nat) (chain : List String) : Pair t t' →
    (step t t').Rel (Eq : Unit → Unit → Prop) (throw (.recursionLimit limit chain))
      (throw (.recursionLimit limit chain))
  callee {t t' : Template} {c c' : Call} {k k' : Context} : Pair t t' → Calls t t' c c' →
    (step t t').contexts k k' →
    Agree (fun u u' => Pair u u' ∧ List.Forall₂ (fun a a' =>
        (∀ v, (step u u').Rel Eq (Frame.bindArgument ⟨w, o, t⟩ u a v)
          (Frame.bindArgument ⟨w', o', t'⟩ u' a' v)) ∧
        (step t t').Operands ⟨w, o, t⟩ ⟨w', o', t'⟩ a.value a'.value) c.args c'.args)
      (Frame.callee ⟨w, o, t⟩ k c.callee) (Frame.callee ⟨w', o', t'⟩ k' c'.callee)
  within {t t' u u' : Template} {body : Run σ Unit} {body' : Run τ Unit} (site : SiteId) :
    Pair t t' → Pair u u' → (step u u').Rel Eq body body' →
    (step t t').Rel Eq (within site u body) (within' site u' body')

/-- Each template stands for itself, where `known` holds of those that a call can end up in. -/
def Pairing.same {σ τ : Type} [Sink σ] [Sink τ] {w w' : World} {o o' : RunOptions}
    {within : Within σ} {within' : Within τ} (L : Lockstep σ τ) (known : Template → Prop)
    (hframes : ∀ t, L.Frames ⟨w, o, t⟩ ⟨w', o', t⟩)
    (hrefuse : ∀ limit chain, L.Rel (Eq : Unit → Unit → Prop) (throw (.recursionLimit limit chain))
      (throw (.recursionLimit limit chain)))
    (hset : ∀ k k' name v, L.contexts k k' → Agree L.contexts (k.set name v) (k'.set name v))
    (hcallee : ∀ t k k' c, L.contexts k k' → Agree (fun u u' => u = u' ∧ known u)
      (Frame.callee ⟨w, o, t⟩ k c) (Frame.callee ⟨w', o', t⟩ k' c))
    (hwithin : ∀ site u {body : Run σ Unit} {body' : Run τ Unit}, known u → L.Rel Eq body body' →
      L.Rel Eq (within site u body) (within' site u body')) :
    Pairing w w' o o' within within' where
  Pair t t' := t = t' ∧ known t
  step _ _ := L
  Calls _ _ c c' := c = c'
  name h := by rw [h.1]
  report := by
    rintro t _ ⟨rfl, -⟩
    exact (hframes t).report
  walk := by
    rintro t _ enter enter' ⟨rfl, -⟩ hcall
    refine Lockstep.walk (hframes t) hcall 0 ?_
    exact List.forall₂_same.mpr fun i _ => Instr.alike_self fun c _ => rfl
  site h := by rw [h]
  refuse limit chain _ := hrefuse limit chain
  callee := by
    rintro t _ c _ k k' ⟨rfl, -⟩ rfl hk
    generalize Frame.callee ⟨w, o, t⟩ k c.callee = r, Frame.callee ⟨w', o', t⟩ k' c.callee = r',
      hcallee t k k' c.callee hk = hagree
    cases hagree with
    | error e => exact .error e
    | @ok u u' hu =>
      refine .ok ⟨hu, ?_⟩
      obtain ⟨rfl, -⟩ := hu
      refine List.forall₂_same.mpr fun a _ => ⟨fun v => ?_, (hframes t).operands a.value⟩
      exact Lockstep.bindArgument_same (hframes t).report hset rfl rfl rfl v
  within site _ hu hbody := hu.1 ▸ hwithin site _ hu.2 hbody

/-- Each template stands for itself, in contexts that are the same. -/
def Pairing.ofEq {σ τ : Type} [Sink σ] [Sink τ] (w : World) (o : RunOptions) {within : Within σ}
    {within' : Within τ} (L : Lockstep σ τ) (hcontexts : L.contexts = Eq)
    (hfire : ∀ e, L.Rel Eq (Run.fire e) (Run.fire e))
    (hrefuse : ∀ limit chain, L.Rel (Eq : Unit → Unit → Prop) (throw (.recursionLimit limit chain))
      (throw (.recursionLimit limit chain)))
    (hwithin : ∀ site u {body : Run σ Unit} {body' : Run τ Unit}, L.Rel Eq body body' →
      L.Rel Eq (within site u body) (within' site u body')) :
    Pairing w w o o within within' :=
  .same L (fun _ => True) (Lockstep.frames_of_eq hcontexts hfire w rfl) hrefuse
    (by
      rw [hcontexts]
      rintro k _ name v rfl
      exact Agree.self fun _ _ => rfl)
    (by
      rw [hcontexts]
      rintro t k _ c rfl
      exact Agree.self fun _ _ => ⟨rfl, trivial⟩)
    (fun site u _ _ _ hbody => hwithin site u hbody)

/-- Templates that stand for each other run in step. -/
theorem Pairing.runTemplateWith {σ τ : Type} [Sink σ] [Sink τ] {w w' : World} {o o' : RunOptions}
    {within : Within σ} {within' : Within τ} (P : Pairing w w' o o' within within')
    (hlimit : o.maxDepth = o'.maxDepth) (depth : Nat) (chain : List String) {t t' : Template}
    (h : P.Pair t t') :
    (P.step t t').Rel Eq (runTemplateWith within w o depth chain t)
      (runTemplateWith within' w' o' depth chain t') := by
  induction depth generalizing chain t t' with
  | zero =>
    refine P.walk h fun c c' hc => ?_
    refine Lockstep.Operands.call (P.report h) (fun _ _ => P.callee h hc) ?_
    intro u u' hu _ _ _
    rw [hlimit, P.name hu]
    exact P.refuse _ _ h
  | succ depth ih =>
    refine P.walk h fun c c' hc => ?_
    refine Lockstep.Operands.call (P.report h) (fun _ _ => P.callee h hc) ?_
    intro u u' hu values values' hvalues
    rw [P.site hc, P.name hu]
    apply P.within _ h hu
    apply (P.step u u').bind
    · refine Lockstep.bindArguments (fun x y hxy => ?_) hvalues
      rw [hxy.2]
      exact hxy.1 _
    · intro _ _ _
      exact ih _ hu

end TemplateEngine

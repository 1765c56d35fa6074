import Mathlib.Data.List.Forall2
import Mathlib.Data.Option.Basic
import TemplateEngine.Proofs.Lockstep.Asks

/-! Two runs that do the same things at the same time. What it means for parts of two runs to agree
is left open; if it holds of the few things that a run does to its state, and of parts put one after
the other, then it holds of whole programs. -/
namespace TemplateEngine

namespace Run

variable {σ α β : Type}

theorem run_bind (m : Run σ α) (k : α → Run σ β) (s : RunState σ) :
    (m >>= k).run.run s =
      match m.run.run s with
      | (.ok a, s') => (k a).run.run s'
      | (.error e, s') => (.error e, s') := by
  simp only [ExceptT.run_bind, StateT.run_bind]
  cases m.run.run s with
  | mk result s' => cases result <;> rfl

theorem run_emit [Sink σ] (text : String) (s : RunState σ) :
    (Run.emit text).run.run s =
      (if (Sink.write s.sink text).2 then .ok () else .error .output,
        { s with sink := (Sink.write s.sink text).1 }) := by
  change (if !(Sink.write s.sink text).2 then throw .output else pure () : Run σ Unit).run.run
    { s with sink := (Sink.write s.sink text).1 } = _
  cases (Sink.write s.sink text).2 <;> rfl

theorem run_within (site : SiteId) (callee : Template) (body : Run σ Unit) (s : RunState σ) :
    (within site callee body).run.run s =
      let after := body.run.run { s with context := s.context.enter site callee }
      (after.1, { after.2 with context := s.context.leave site after.2.context }) := rfl

end Run

/-- Two answers are both good, and what they give is related, or both refuse for the same reason. -/
inductive Agree {ε α β : Type} (A : α → β → Prop) : Except ε α → Except ε β → Prop where
  | ok {a : α} {b : β} : A a b → Agree A (.ok a) (.ok b)
  | error (e : ε) : Agree A (.error e) (.error e)

theorem Agree.self {ε α : Type} {A : α → α → Prop} {r : Except ε α}
    (h : ∀ a, r = .ok a → A a a) : Agree A r r := by
  cases r with
  | error e => exact .error e
  | ok a => exact .ok (h a rfl)

theorem Agree.eq {ε α : Type} {r r' : Except ε α} (h : Agree Eq r r') : r = r' := by
  cases h with
  | error e => rfl
  | ok h => rw [h]

theorem Agree.imp {ε α β : Type} {A B : α → β → Prop} (hAB : ∀ a b, A a b → B a b)
    {r : Except ε α} {r' : Except ε β} (h : Agree A r r') : Agree B r r' := by
  cases h with
  | error e => exact .error e
  | ok h => exact .ok (hAB _ _ h)

theorem Agree.bind {ε α β γ δ : Type} {A : α → β → Prop} {B : γ → δ → Prop} {r : Except ε α}
    {r' : Except ε β} {f : α → Except ε γ} {f' : β → Except ε δ} (h : Agree A r r')
    (hf : ∀ a b, A a b → Agree B (f a) (f' b)) : Agree B (r >>= f) (r' >>= f') := by
  cases h with
  | error e => exact .error e
  | ok h => exact hf _ _ h

/-- How parts of two runs are compared: `contexts` is what is known of the contexts wherever a part
begins, and `Rel A m m'` says that `m` and `m'` agree if what they give is related by `A`. -/
structure Lockstep (σ τ : Type) [Sink σ] [Sink τ] where
  contexts : Context → Context → Prop
  Rel : {α β : Type} → (α → β → Prop) → Run σ α → Run τ β → Prop
  pure {α β : Type} {A : α → β → Prop} {a : α} {b : β} : A a b → Rel A (pure a) (pure b)
  bind {α β γ δ : Type} {A : α → β → Prop} {B : γ → δ → Prop} {m : Run σ α} {m' : Run τ β}
    {k : α → Run σ γ} {k' : β → Run τ δ} :
    Rel A m m' → (∀ a b, A a b → Rel B (k a) (k' b)) → Rel B (m >>= k) (m' >>= k')
  get {α β : Type} {A : α → β → Prop} {k : RunState σ → Run σ α} {k' : RunState τ → Run τ β} :
    (∀ s s', contexts s.context s'.context → Rel A (k s) (k' s')) → Rel A (get >>= k) (get >>= k')
  put {k k' : Context} : contexts k k' →
    Rel Eq (modify fun s => { s with context := k }) (modify fun s => { s with context := k' })
  emit (text : String) : Rel Eq (Run.emit text) (Run.emit text)
  store (slot : SlotId) (v : Value) : Rel Eq (Run.store slot v) (Run.store slot v)

/-- The same instruction, except that calls only need to be related. -/
inductive Instr.Alike (Q : Call → Call → Prop) : Instr → Instr → Prop where
  | call {c c' : Call} : Q c c' → Alike Q (.action (.call c)) (.action (.call c'))
  | same {i : Instr} : (∀ c, i ≠ .action (.call c)) → Alike Q i i

theorem Instr.alike_self {Q : Call → Call → Prop} {i : Instr}
    (h : ∀ c, i = .action (.call c) → Q c c) : Alike Q i i := by
  by_cases hcall : ∃ c, i = .action (.call c)
  · obtain ⟨c, rfl⟩ := hcall
    exact .call (h c rfl)
  · exact .same fun c hc => hcall ⟨c, hc⟩

/-- Instructions in the same place of two programs with the same jumps, where `R` relates what is
not a jump. -/
inductive Instr.Beside (R : Action → Action → Prop) : Instr → Instr → Prop where
  | action {a a' : Action} : R a a' → Beside R (.action a) (.action a')
  | header {i : Instr} : (∀ a, i ≠ .action a) → Beside R i i

theorem Instr.beside_self {R : Action → Action → Prop} {i : Instr}
    (h : ∀ a, i = .action a → R a a) : Beside R i i := by
  cases i with
  | action a => exact .action (h a rfl)
  | _ => exact .header nofun

theorem Instr.Alike.beside {Q : Call → Call → Prop} {i i' : Instr} (h : Alike Q i i') :
    Beside (fun a a' => Alike Q (.action a) (.action a')) i i' := by
  cases h with
  | call hc => exact .action (.call hc)
  | same hplain =>
    refine beside_self ?_
    rintro a rfl
    exact .same hplain

namespace Lockstep

variable {σ τ : Type} [Sink σ] [Sink τ] (L : Lockstep σ τ)

/-- Both runs see the same in related contexts, and note and report the same. -/
structure Frames (f f' : Frame) : Prop where
  scope {c c' : Context} : L.contexts c c' → f.scope c = f'.scope c'
  host : f.world.host = f'.world.host
  operations : f.template.operations = f'.template.operations
  report (e : DataError) : L.Rel Eq (f.report e) (f'.report e)
  debug (index : Nat) (value : Option Operand) (compare : Option String) :
    L.Rel Eq (f.debug index value compare) (f'.debug index value compare)

variable {L} {f f' : Frame}

/-- A question that is answered alike in related contexts. -/
theorem attempt {report : Reporter σ} {report' : Reporter τ}
    (hreport : ∀ e, L.Rel Eq (report e) (report' e)) {α : Type} (default : α)
    {ask ask' : Context → Except DataError α} (hask : ∀ k k', L.contexts k k' → ask k = ask' k') :
    L.Rel Eq (Run.attempt report default ask) (Run.attempt report' default ask') := by
  apply L.get
  intro s s' hs
  rw [hask _ _ hs]
  split
  · exact L.pure rfl
  · exact L.bind (hreport _) fun _ _ _ => L.pure rfl

theorem emitAll (texts : List String) : L.Rel Eq (Run.emitAll texts) (Run.emitAll texts) := by
  induction texts with
  | nil => exact L.pure rfl
  | cons text rest ih => exact L.bind (L.emit text) fun _ _ _ => ih

variable (L f f') in
/-- Operands that have the same value and the same text, each in its run. -/
structure Operands (x x' : Operand) : Prop where
  value {k k' : Context} : L.contexts k k' → (f.scope k).resolve x = (f'.scope k').resolve x'
  text {k k' : Context} : L.contexts k k' → (f.scope k).operandText x = (f'.scope k').operandText x'

namespace Operands

variable (hreport : ∀ e, L.Rel Eq (f.report e) (f'.report e)) {x x' : Operand}
  (hx : L.Operands f f' x x')
include hreport

section

include hx

theorem valueOrNull : L.Rel Eq (f.valueOrNull x) (f'.valueOrNull x') := by
  rw [f.valueOrNull_eq, f'.valueOrNull_eq]
  exact attempt hreport _ fun _ _ hk => hx.value hk

theorem writeVariable : L.Rel Eq (f.writeVariable x) (f'.writeVariable x') := by
  rw [f.writeVariable_eq, f'.writeVariable_eq]
  refine L.bind (attempt hreport _ fun k k' hk => ?_) ?_
  · rw [Frame.shown, Frame.shown, hx.value hk, hx.text hk]
  · rintro texts _ rfl
    exact emitAll texts

theorem condition : L.Rel Eq (f.condition x) (f'.condition x') := by
  rw [f.condition_eq, f'.condition_eq]
  refine attempt hreport _ fun k k' hk => ?_
  rw [Frame.holds, Frame.holds, hx.value hk]

theorem elements (hhost : f.world.host = f'.world.host) :
    L.Rel Eq (f.elements x) (f'.elements x') := by
  rw [f.elements_eq, f'.elements_eq]
  refine attempt hreport _ fun k k' hk => ?_
  rw [Frame.items, Frame.items, hx.value hk, hx.text hk, hhost]

end

theorem exec (hoperations : f.template.operations = f'.template.operations)
    (htarget : ∀ k k', L.contexts k k' → k.target = k'.target) (op : Operation)
    {arg arg' : Option Operand} (harg : Option.Rel (L.Operands f f') arg arg') :
    L.Rel Eq (f.exec op arg) (f'.exec op arg') := by
  rw [f.exec_eq, f'.exec_eq]
  refine L.bind (attempt hreport _ fun k k' hk => ?_) ?_
  · have hvalue : arg.mapM (f.scope k).resolve = arg'.mapM (f'.scope k').resolve := by
      cases harg with
      | none => rfl
      | some hx => simp only [Option.mapM_some, hx.value hk]
    rw [Frame.answer, Frame.answer, hvalue, hoperations, htarget _ _ hk]
  · rintro texts _ rfl
    exact emitAll texts

/-- Arguments that stand for each other have the same values. -/
theorem evaluate {B : Argument → Argument → Prop} {args args' : List Argument}
    (hargs : List.Forall₂ (fun a a' => B a a' ∧ L.Operands f f' a.value a'.value) args args') :
    L.Rel (List.Forall₂ fun x y => B x.1 y.1 ∧ x.2 = y.2) (f.evaluate args)
      (f'.evaluate args') := by
  induction hargs with
  | nil => exact L.pure .nil
  | @cons a a' rest rest' ha _ ih =>
    rw [Frame.evaluate, Frame.evaluate]
    apply L.bind (ha.2.valueOrNull hreport)
    rintro v _ rfl
    apply L.bind ih
    intro values values' hvalues
    exact L.pure (.cons ⟨ha.1, rfl⟩ hvalues)

/-- A call agrees with another if the same callee answers, and goes into it with arguments that
agree. -/
theorem call {enter : Enter σ} {enter' : Enter τ} {U : Template → Template → Prop}
    {B : Template → Template → Argument → Argument → Prop} {c c' : Call}
    (hcallee : ∀ k k', L.contexts k k' → Agree (fun u u' => U u u' ∧
        List.Forall₂ (fun a a' => B u u' a a' ∧ L.Operands f f' a.value a'.value) c.args c'.args)
      (f.callee k c.callee) (f'.callee k' c'.callee))
    (henter : ∀ u u', U u u' → ∀ values values',
        List.Forall₂ (fun x y => B u u' x.1 y.1 ∧ x.2 = y.2) values values' →
      L.Rel Eq (enter u c.site (f.bindArguments u values))
        (enter' u' c'.site (f'.bindArguments u' values'))) :
    L.Rel Eq (f.call enter c) (f'.call enter' c') := by
  apply L.get
  intro s s' hcontexts
  generalize f.callee s.context c.callee = r, f'.callee s'.context c'.callee = r',
    hcallee _ _ hcontexts = hagree
  cases hagree with
  | error e => exact hreport e
  | ok hu =>
    obtain ⟨hu, hargs⟩ := hu
    apply L.bind (evaluate hreport hargs)
    intro values values' hvalues
    exact henter _ _ hu _ _ hvalues

end Operands

theorem report_of_placeholders (h : f.options.placeholders = f'.options.placeholders)
    (e : DataError) : L.Rel Eq (f.report e) (f'.report e) := by
  unfold Frame.report
  rw [h]
  split
  · exact L.emit _
  · exact L.pure rfl

theorem debug_of_fire (hscope : ∀ k k', L.contexts k k' → f.scope k = f'.scope k')
    (hname : f.template.name = f'.template.name)
    (htrigger : ∀ k k', L.contexts k k' → k.trigger = k'.trigger)
    (hfire : ∀ e, L.Rel Eq (Run.fire e) (Run.fire e))
    (index : Nat) (value : Option Operand) (compare : Option String) :
    L.Rel Eq (f.debug index value compare) (f'.debug index value compare) := by
  have hcurrent : L.Rel Eq f.currentScope f'.currentScope :=
    L.get fun _ _ hk => L.pure (hscope _ _ hk)
  apply L.bind hcurrent
  rintro scope _ rfl
  rw [hname]
  apply L.get
  intro s s' hk
  rw [htrigger _ _ hk]
  cases s'.context.trigger with
  | none => exact L.pure rfl
  | some trigger =>
    dsimp only
    split
    · exact hfire _
    · exact L.pure rfl

/-- A template sees the same as itself if the contexts are the same. -/
theorem frames_of_eq (hcontexts : L.contexts = Eq)
    (hfire : ∀ e, L.Rel Eq (Run.fire e) (Run.fire e)) (w : World) {o o' : RunOptions}
    (hplaceholders : o.placeholders = o'.placeholders) (t : Template) :
    L.Frames ⟨w, o, t⟩ ⟨w, o', t⟩ where
  scope {k k'} h := by
    rw [hcontexts] at h
    rw [h]
    rfl
  host := rfl
  operations := rfl
  report := report_of_placeholders hplaceholders
  debug := by
    refine debug_of_fire ?_ rfl ?_ hfire
    · rw [hcontexts]
      rintro k _ rfl
      rfl
    · rw [hcontexts]
      rintro k _ rfl
      rfl

namespace Frames

variable (h : L.Frames f f')
include h

/-- An operand is the same to both. -/
theorem operands (x : Operand) : L.Operands f f' x x where
  value hk := by rw [h.scope hk]
  text hk := by rw [h.scope hk]

theorem exec (op : Operation) (arg : Option Operand) :
    L.Rel Eq (f.exec op arg) (f'.exec op arg) := by
  refine Operands.exec h.report h.operations ?_ op ?_
  · exact fun _ _ hk => congrArg Scope.target (h.scope hk)
  cases arg with
  | none => exact .none
  | some x => exact .some (h.operands x)

/-- Arguments with the same operands are the same to both. -/
theorem call {enter : Enter σ} {enter' : Enter τ} {U : Template → Template → Prop}
    {B : Template → Template → Argument → Argument → Prop} {c c' : Call}
    (hcallee : ∀ k k', L.contexts k k' → Agree (fun u u' => U u u' ∧
        List.Forall₂ (fun a a' => B u u' a a' ∧ a.value = a'.value) c.args c'.args)
      (f.callee k c.callee) (f'.callee k' c'.callee))
    (henter : ∀ u u', U u u' → ∀ values values',
        List.Forall₂ (fun x y => B u u' x.1 y.1 ∧ x.2 = y.2) values values' →
      L.Rel Eq (enter u c.site (f.bindArguments u values))
        (enter' u' c'.site (f'.bindArguments u' values'))) :
    L.Rel Eq (f.call enter c) (f'.call enter' c') := by
  refine Operands.call h.report (fun k k' hk => (hcallee k k' hk).imp ?_) henter
  rintro u u' ⟨hu, hargs⟩
  exact ⟨hu, hargs.imp fun a a' ⟨hb, hvalue⟩ => ⟨hb, hvalue ▸ h.operands a.value⟩⟩

end Frames

section Walk

variable {Q : Call → Call → Prop} {enter : Enter σ} {enter' : Enter τ} (h : L.Frames f f')

theorem passes (header : Loop) {body : Run σ Unit} {body' : Run τ Unit}
    (hbody : L.Rel Eq body body') (items : List Value) :
    L.Rel Eq (Frame.passes header body items) (Frame.passes header body' items) := by
  induction items with
  | nil => exact L.pure rfl
  | cons v rest ih =>
    apply L.bind (L.store _ _)
    intro _ _ _
    apply L.bind (L.store _ _)
    intro _ _ _
    apply L.bind hbody
    intro _ _ _
    exact ih

/-- Programs with the same jumps, where what is done at each instruction agrees. -/
theorem walkers {k : Walker σ} {k' : Walker τ} {R : Action → Action → Prop}
    (hact : ∀ index a a', R a a' → L.Rel Eq (k.act index a) (k'.act index a'))
    (hcondition : ∀ x, L.Rel Eq (k.condition x) (k'.condition x))
    (helements : ∀ x, L.Rel Eq (k.elements x) (k'.elements x)) (index : Nat) {is is' : List Instr}
    (his : List.Forall₂ (Instr.Beside R) is is') :
    L.Rel Eq (k.walk index is) (k'.walk index is') := by
  cases his with
  | nil =>
    rw [Walker.walk, Walker.walk]
    exact L.pure rfl
  | @cons i i' rest rest' hi hrest =>
    -- Both programs jump to the same places, and the parts they jump over are alike.
    have hwalk (index : Nat) {part part' : List Instr} (hlength : part.length ≤ rest.length)
        (hpart : List.Forall₂ (Instr.Beside R) part part') :
        L.Rel Eq (k.walk index part) (k'.walk index part') :=
      walkers hact hcondition helements index hpart
    have htake (index n : Nat) :=
      hwalk index (List.take_sublist n rest).length_le (List.forall₂_take n hrest)
    have hdrop (index n : Nat) :=
      hwalk index (List.drop_sublist n rest).length_le (List.forall₂_drop n hrest)
    have hnext := hwalk (index + 1) (Nat.le_refl _) hrest
    cases hi with
    | action ha =>
      rw [Walker.walk, Walker.walk]
      exact L.bind (hact index _ _ ha) fun _ _ _ => hnext
    | header hplain =>
      cases i with
      | action a => exact absurd rfl (hplain a)
      | branch _ cond next stop =>
        rw [Walker.walk, Walker.walk]
        apply L.bind (hcondition cond)
        rintro holds _ rfl
        split
        · exact L.bind (htake _ _) fun _ _ _ => hdrop _ _
        · exact hdrop _ _
      | otherwise | endLoop =>
        rw [Walker.walk, Walker.walk]
        exact hnext
      | loop header stop =>
        rw [Walker.walk, Walker.walk]
        apply L.bind (helements _)
        rintro items _ rfl
        exact L.bind (passes header (htake _ _) items) fun _ _ _ => hdrop _ _
termination_by is.length
decreasing_by
  rw [List.length_cons]
  omega

include h

variable (hcall : ∀ c c', Q c c' → L.Rel Eq (f.call enter c) (f'.call enter' c'))
include hcall

theorem act (index : Nat) {a a' : Action} (ha : Instr.Alike Q (.action a) (.action a')) :
    L.Rel Eq (f.act enter index a) (f'.act enter' index a') := by
  cases ha with
  | call hc => exact hcall _ _ hc
  | same hplain =>
    match a with
    | .literal text => exact L.emit text
    | .variable source => exact (h.operands source).writeVariable h.report
    | .set target value =>
      apply L.bind ((h.operands value).valueOrNull h.report)
      rintro v _ rfl
      exact L.store target v
    | .call c => exact absurd rfl (hplain c)
    | .exec op arg => exact h.exec op arg
    | .debug value compare => exact h.debug index value compare

theorem walk (index : Nat) {is is' : List Instr} (his : List.Forall₂ (Instr.Alike Q) is is') :
    L.Rel Eq (f.walk enter index is) (f'.walk enter' index is') :=
  walkers (fun _ _ _ ha => act h hcall _ ha) (fun x => (h.operands x).condition h.report)
    (fun x => (h.operands x).elements h.report h.host) index (his.imp fun _ _ hi => hi.beside)

end Walk

section Self

variable {enter : Enter σ} {enter' : Enter τ} (h : L.Frames f f')
  (hcallee : ∀ k k' c, L.contexts k k' → f.callee k c = f'.callee k' c)
  (henter : ∀ u site values, L.Rel Eq (enter u site (f.bindArguments u values))
    (enter' u site (f'.bindArguments u values)))
include h hcallee henter

/-- A call beside itself, where the calls that are made have the same arguments. -/
theorem call_self (c : Call) : L.Rel Eq (f.call enter c) (f'.call enter' c) := by
  refine h.call (U := Eq) (B := fun _ _ => Eq) (fun k k' hk => ?_) ?_
  · rw [hcallee k k' _ hk]
    exact .self fun u _ => ⟨rfl, List.forall₂_same.mpr fun _ _ => ⟨rfl, rfl⟩⟩
  · rintro u _ rfl values values' hvalues
    have heq : values = values' :=
      List.forall₂_eq_eq_eq ▸ hvalues.imp fun x y hxy => Prod.ext hxy.1 hxy.2
    rw [heq]
    exact henter u c.site values'

/-- A program beside itself. -/
theorem walk_self (index : Nat) (is : List Instr) :
    L.Rel Eq (f.walk enter index is) (f'.walk enter' index is) := by
  refine walk (Q := Eq) h ?_ index
    (List.forall₂_same.mpr fun i _ => Instr.alike_self fun c _ => rfl)
  rintro c _ rfl
  exact call_self h hcallee henter c

end Self

section Templates

/-- Calls of templates of which `known` holds agree, however alike the arguments are put into the
context. -/
def Enters (L : Lockstep σ τ) (known : Template → Prop) (enter : Enter σ) (enter' : Enter τ) :
    Prop :=
  ∀ u site bind bind', known u → L.Rel Eq bind bind' →
    L.Rel Eq (enter u site bind) (enter' u site bind')

/-- Templates agree with themselves at all depths, if the instructions of each do. -/
theorem runTemplateBy {within : Within σ} {within' : Within τ} {known : Template → Prop}
    {body : Template → Enter σ → Run σ Unit} {body' : Template → Enter τ → Run τ Unit} {limit : Nat}
    (hbody : ∀ t enter enter', known t → L.Enters known enter enter' →
      L.Rel Eq (body t enter) (body' t enter'))
    (hrefuse : ∀ chain, L.Rel (Eq : Unit → Unit → Prop) (throw (.recursionLimit limit chain))
      (throw (.recursionLimit limit chain)))
    (hwithin : ∀ site u {b : Run σ Unit} {b' : Run τ Unit}, known u → L.Rel Eq b b' →
      L.Rel Eq (within site u b) (within' site u b'))
    (depth : Nat) (chain : List String) {t : Template} (ht : known t) :
    L.Rel Eq (runTemplateBy within body limit depth chain t)
      (runTemplateBy within' body' limit depth chain t) := by
  induction depth generalizing chain t with
  | zero => exact hbody t _ _ ht fun _ _ _ _ _ _ => hrefuse _
  | succ depth ih =>
    refine hbody t _ _ ht fun u site bind bind' hu hbind => ?_
    exact hwithin site u hu (L.bind hbind fun _ _ _ => ih _ hu)

end Templates

end Lockstep

end TemplateEngine

import TemplateEngine.Proofs.Debug.Tables
import TemplateEngine.Proofs.Nested.Evaluation

/-! Nested blocks of two programs that do the same when they run, but for their debug markers. -/
namespace TemplateEngine

/-- A sink that cannot tell where one text ends and the next one begins. -/
def Sink.Seamless (σ : Type) [Sink σ] : Prop :=
  ∀ (s : σ) (text more : String), Sink.write s (text ++ more) =
    if (Sink.write s text).2 then Sink.write (Sink.write s text).1 more else Sink.write s text

theorem Run.emit_append {σ : Type} [Sink σ] (h : Sink.Seamless σ) (text more : String) :
    (Run.emit (text ++ more) : Run σ Unit) = (do Run.emit text; Run.emit more) := by
  funext s
  change (Run.emit (text ++ more)).run.run s = (Run.emit text >>= fun _ => Run.emit more).run.run s
  rw [Run.run_bind, Run.run_emit, Run.run_emit, h]
  cases hwrite : (Sink.write s.sink text).2 with
  | false => simp [hwrite]
  | true =>
    simp only [if_true]
    rw [Run.run_emit]

theorem Frame.runBlock_foldl {σ : Type} [Sink σ] (f : Frame) (enter : Enter σ) (index : Nat)
    (items : List Item) (after : Block) :
    f.runBlock enter index (items.foldl (fun b i => .cons i b) after) = (do
      f.runBlock enter index (.ofReverse items)
      f.runBlock enter (index + (Block.ofReverse items).flatten.length) after) := by
  induction items generalizing after with
  | nil => simp [Block.ofReverse, Frame.runBlock, Block.flatten]
  | cons i items ih =>
    have hfirst : f.runBlock enter index (.ofReverse (i :: items)) = (do
        f.runBlock enter index (.ofReverse items)
        f.runBlock enter (index + (Block.ofReverse items).flatten.length) (.cons i .nil)) :=
      ih (.cons i .nil)
    rw [List.foldl_cons, ih, hfirst, Block.flatten_ofReverse, Block.flatten_ofReverse]
    simp [Frame.runBlock, Nat.add_assoc]

theorem Frame.runBlock_ofReverse_cons {σ : Type} [Sink σ] (f : Frame) (enter : Enter σ)
    (index : Nat)
    (i : Item) (items : List Item) :
    f.runBlock enter index (.ofReverse (i :: items)) = (do
      f.runBlock enter index (.ofReverse items)
      f.runItem enter (index + (Block.ofReverse items).flatten.length) i) := by
  rw [Block.ofReverse, List.foldl_cons, runBlock_foldl]
  simp [Frame.runBlock]

theorem Lockstep.writeNotes {σ τ : Type} [Sink σ] [Sink τ] (L : Lockstep σ τ)
    (unknown : List String) : L.Rel Eq (Frame.writeNotes unknown) (Frame.writeNotes unknown) := by
  induction unknown with
  | nil => exact L.pure rfl
  | cons name rest ih =>
    simp only [Frame.writeNotes, List.forM_eq_forM, List.forM_cons]
    exact L.bind (L.emit _) fun _ _ _ => ih

namespace TwinTables

/-- Two templates, whose tables have grown out of these, see the same in related contexts, and their
calls agree. Debug markers do nothing that could be seen. -/
structure Steps {σ : Type} [Sink σ] (T : TwinTables) (L : Lockstep σ σ) (f f' : Frame)
    (enter enter' : Enter σ) : Prop where
  seamless : Sink.Seamless σ
  scope {k k' : Context} : L.contexts k k' → T.Sees (f.scope k) (f'.scope k')
  host : f.world.host = f'.world.host
  operations : f.template.operations = f'.template.operations
  report (e : DataError) : L.Rel Eq (f.report e) (f'.report e)
  call {c c' : Call} : T.Calls c c' → L.Rel Eq (f.call enter c) (f'.call enter' c')
  debug (index index' : Nat) (value value' : Option Operand) (compare compare' : Option String) :
    L.Rel Eq (f.debug index value compare) (f'.debug index' value' compare')
  mute (index : Nat) (value : Option Operand) (compare : Option String) :
    L.Rel Eq (f.debug index value compare) (pure ())

theorem Calls.later {T T' : TwinTables} {c c' : Call} (h : T.Calls c c') (hT : T.Grows T') :
    T'.Calls c c' :=
  ⟨h.callee, h.args.imp fun _ _ ha => ha.later hT, h.site⟩

section Steps

variable {σ : Type} [Sink σ] {T T' : TwinTables} {L : Lockstep σ σ} {f f' : Frame}
  {enter enter' : Enter σ}

theorem Steps.earlier (h : T'.Steps L f f' enter enter') (hT : T.Grows T') :
    T.Steps L f f' enter enter' where
  seamless := h.seamless
  scope hk := (h.scope hk).earlier hT
  host := h.host
  operations := h.operations
  report := h.report
  call hc := h.call (hc.later hT)
  debug := h.debug
  mute := h.mute

variable (h : T.Steps L f f' enter enter')
include h

theorem Steps.operands {x x' : Operand} (hx : T.Operands x x') : L.Operands f f' x x' :=
  ⟨fun hk => hx.value (h.scope hk), fun hk => hx.text (h.scope hk)⟩

theorem Steps.act {a a' : Action} (ha : T.Actions a a') (index index' : Nat) :
    L.Rel Eq (f.act enter index a) (f'.act enter' index' a') := by
  match ha with
  | .literal text => exact L.emit text
  | .variable hx => exact (h.operands hx).writeVariable h.report
  | .set target hx =>
    apply L.bind ((h.operands hx).valueOrNull h.report)
    rintro v _ rfl
    exact L.store target v
  | .call hc => exact h.call hc
  | .exec op harg =>
    refine Lockstep.Operands.exec h.report h.operations (fun k k' hk => ?_) op ?_
    · exact (congrArg Scope.target (h.scope hk).same).symm
    · cases harg with
      | none => exact .none
      | some hx => exact .some (h.operands hx)
  | .debug value value' compare compare' => exact h.debug _ _ _ _ _ _

end Steps

/-! Parts of the two programs that do the same, wherever in the programs they are. -/

structure Items (T : TwinTables) (i i' : Item) : Prop where
  run {σ : Type} [Sink σ] {L : Lockstep σ σ} {f f' : Frame} {enter enter' : Enter σ} :
    T.Steps L f f' enter enter' → ∀ index index',
      L.Rel Eq (f.runItem enter index i) (f'.runItem enter' index' i')

structure Blocks (T : TwinTables) (b b' : Block) : Prop where
  run {σ : Type} [Sink σ] {L : Lockstep σ σ} {f f' : Frame} {enter enter' : Enter σ} :
    T.Steps L f f' enter enter' → ∀ index index',
      L.Rel Eq (f.runBlock enter index b) (f'.runBlock enter' index' b')

structure Chains (T : TwinTables) (c c' : Chain) : Prop where
  run {σ : Type} [Sink σ] {L : Lockstep σ σ} {f f' : Frame} {enter enter' : Enter σ} :
    T.Steps L f f' enter enter' → ∀ index index',
      L.Rel Eq (f.runChain enter index c) (f'.runChain enter' index' c')

/-- Items in reverse order. -/
abbrev Lists (T : TwinTables) (items items' : List Item) : Prop :=
  T.Blocks (.ofReverse items) (.ofReverse items')

inductive Branches (T : TwinTables) : Branch → Branch → Prop where
  | intro {unknown : List String} {cond cond' : Operand} {body body' : Block} :
    T.Operands cond cond' → T.Blocks body body' →
    Branches T ⟨unknown, cond, body⟩ ⟨unknown, cond', body'⟩

variable {T T' : TwinTables}

theorem Blocks.later {b b' : Block} (h : T.Blocks b b') (hT : T.Grows T') : T'.Blocks b b' :=
  ⟨fun hsteps => h.run (hsteps.earlier hT)⟩

theorem Branches.later {b b' : Branch} (h : T.Branches b b') (hT : T.Grows T') :
    T'.Branches b b' := by
  obtain ⟨hcond, hbody⟩ := h
  exact .intro (hcond.later hT) (hbody.later hT)

theorem items_action {a a' : Action} (ha : T.Actions a a') : T.Items (.action a) (.action a') :=
  ⟨fun h index index' => h.act ha index index'⟩

theorem items_choice {c c' : Chain} (hc : T.Chains c c') : T.Items (.choice c) (.choice c') where
  run h index index' := by
    rw [Frame.runItem, Frame.runItem]
    exact hc.run h index index'

theorem items_loop {header header' : Loop} (hheader : T.Loops header header') {b b' : Block}
    (hb : T.Blocks b b') : T.Items (.loop header b) (.loop header' b') where
  run {σ _ L f f' enter enter'} h index index' := by
    rw [Frame.runItem, Frame.runItem, ← hheader.entry, ← hheader.next]
    apply L.bind ((h.operands hheader.container).elements h.report h.host)
    rintro items _ rfl
    rw [← Frame.passes_eq, ← Frame.passes_eq]
    exact Lockstep.passes header (hb.run h _ _) items

theorem chains_done : T.Chains .done .done where
  run {σ _ L f f' enter enter'} h index index' := by
    rw [Frame.runChain, Frame.runChain]
    exact L.pure rfl

theorem chains_otherwise {b b' : Block} (hb : T.Blocks b b') :
    T.Chains (.otherwise b) (.otherwise b') where
  run h index index' := by
    rw [Frame.runChain, Frame.runChain]
    exact hb.run h _ _

theorem chains_ofReverse {branches branches' : List Branch}
    (h : List.Forall₂ T.Branches branches branches') {after after' : Chain}
    (hafter : T.Chains after after') :
    T.Chains (.ofReverse branches after) (.ofReverse branches' after') := by
  induction h generalizing after after' with
  | nil => exact hafter
  | cons hb _ ih =>
    obtain ⟨hcond, hbody⟩ := hb
    refine ih ⟨fun {σ _ L f f' enter enter'} h index index' => ?_⟩
    rw [Frame.runChain, Frame.runChain]
    apply L.bind (L.writeNotes _)
    rintro _ _ -
    apply L.bind ((h.operands hcond).condition h.report)
    rintro holds _ rfl
    split
    · exact hbody.run h _ _
    · exact hafter.run h _ _

theorem lists_nil : T.Lists [] [] where
  run {σ _ L f f' enter enter'} h index index' := by
    simp only [Block.ofReverse, List.foldl_nil, Frame.runBlock]
    exact L.pure rfl

theorem lists_cons {items items' : List Item} (h : T.Lists items items') {i i' : Item}
    (hi : T.Items i i') : T.Lists (i :: items) (i' :: items') where
  run {σ _ L f f' enter enter'} hsteps index index' := by
    rw [f.runBlock_ofReverse_cons, f'.runBlock_ofReverse_cons]
    exact L.bind (h.run hsteps _ _) fun _ _ _ => hi.run hsteps _ _

theorem lists_add {items items' : List Item} (h : T.Lists items items')
    {actions actions' : List Action} (hactions : List.Forall₂ T.Actions actions actions') :
    T.Lists ((actions.map .action).reverse ++ items)
      ((actions'.map .action).reverse ++ items') := by
  induction hactions generalizing items items' with
  | nil => exact h
  | cons ha _ ih =>
    simp only [List.map_cons, List.reverse_cons, List.append_assoc, List.singleton_append]
    exact ih (lists_cons h (items_action ha))

/-- A debug marker on one side stands for nothing. -/
theorem lists_mute {items items' : List Item} (h : T.Lists items items') (value : Option Operand)
    (compare : Option String) : T.Lists (.action (.debug value compare) :: items) items' where
  run {σ _ L f f' enter enter'} hsteps index index' := by
    have hpure : f'.runBlock enter' index' (.ofReverse items') = (do
        f'.runBlock enter' index' (.ofReverse items')
        pure ()) := (bind_pure _).symm
    rw [f.runBlock_ofReverse_cons, hpure]
    exact L.bind (h.run hsteps _ _) fun _ _ _ => hsteps.mute _ _ _

end TwinTables

end TemplateEngine

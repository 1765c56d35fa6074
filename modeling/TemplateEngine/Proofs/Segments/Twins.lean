import TemplateEngine.Proofs.Calls.Twins
import TemplateEngine.Proofs.Segments.Wired

/-! Templates that are the same when seen by name, in contexts of their own. They differ in what
their calls are bound to, and an argument that fits its callee goes to the same slot either way. -/
namespace TemplateEngine

/-! Lists and instructions that are the same when seen by name. -/

theorem forall₂_of_map_eq {α β : Type} {f : α → β} {xs ys : List α} (h : xs.map f = ys.map f) :
    List.Forall₂ (fun x y => x ∈ xs ∧ y ∈ ys ∧ f x = f y) xs ys := by
  induction xs generalizing ys with
  | nil =>
    obtain rfl := List.map_eq_nil_iff.mp h.symm
    exact .nil
  | cons x xs ih =>
    cases ys with
    | nil => cases h
    | cons y ys =>
      obtain ⟨hxy, hrest⟩ := List.cons.inj h
      refine .cons ⟨List.mem_cons_self, List.mem_cons_self, hxy⟩ ?_
      exact (ih hrest).imp fun _ _ ⟨hx, hy, hf⟩ =>
        ⟨List.mem_cons_of_mem _ hx, List.mem_cons_of_mem _ hy, hf⟩

theorem Instr.byName_of_plain {i : Instr} (h : ∀ c, i ≠ .action (.call c)) : i.byName = i := by
  match i with
  | .action (.call c) => exact absurd rfl (h c)
  | .action (.literal _) | .action (.variable _) | .action (.set _ _) => rfl
  | .action (.exec _ _) | .action (.debug _ _) => rfl
  | .branch .. | .otherwise | .loop .. | .endLoop => rfl

theorem Instr.exists_call_of_byName {i : Instr} {d : Call} (h : i.byName = .action (.call d)) :
    ∃ c, i = .action (.call c) ∧ c.byName = d := by
  by_cases hcall : ∃ c, i = .action (.call c)
  · obtain ⟨c, rfl⟩ := hcall
    cases h
    exact ⟨c, rfl, rfl⟩
  · rw [Instr.byName_of_plain fun c hc => hcall ⟨c, hc⟩] at h
    exact absurd ⟨d, h⟩ hcall

theorem Instr.alike_of_byName {i i' : Instr} (h : i.byName = i'.byName) :
    Instr.Alike (fun c c' => c.byName = c'.byName) i i' := by
  by_cases hcall : ∃ c, i = .action (.call c)
  · obtain ⟨c, rfl⟩ := hcall
    obtain ⟨c', rfl, hc⟩ := Instr.exists_call_of_byName h.symm
    exact .call hc.symm
  · have hplain : ∀ c, i ≠ .action (.call c) := fun c hc => hcall ⟨c, hc⟩
    have hplain' : ∀ c, i' ≠ .action (.call c) := by
      rintro c rfl
      obtain ⟨c', hc', -⟩ := Instr.exists_call_of_byName h
      exact hplain c' hc'
    rw [Instr.byName_of_plain hplain, Instr.byName_of_plain hplain'] at h
    subst h
    exact .same hplain

/-- Templates that cannot be told apart when they run, but for what they call. -/
structure Template.Same (t t' : Template) : Prop where
  name : t.name = t'.name
  slots : t.slots = t'.slots
  arena : t.arena = t'.arena
  operations : t.operations = t'.operations

theorem Template.same_of_byName {t t' : Template} (h : t.byName = t'.byName) : t.Same t' where
  name := (congrArg Program.name h :)
  slots := (congrArg Program.slots h :)
  arena := (congrArg Program.arena h :)
  operations := (congrArg Program.operations h :)

namespace Context.Twins

variable {t t' : Template} {k k' : Context}

theorem fresh (hsame : t.Same t') : Twins Eq t t' (.fresh t) (.fresh t') where
  left := ⟨rfl, rfl, List.length_replicate⟩
  right := ⟨rfl, rfl, List.length_replicate⟩
  values := by
    change List.replicate t.slots.size Value.null = List.replicate t'.slots.size Value.null
    rw [hsame.slots]
  target := rfl
  trigger := rfl

theorem aim (h : Twins Eq t t' k k') (target : Value) (trigger : Option TriggerId) :
    Twins Eq t t' { k with target, trigger } { k' with target, trigger } where
  left := ⟨h.left.name, h.left.slots, h.left.length⟩
  right := ⟨h.right.name, h.right.slots, h.right.length⟩
  values := h.values
  target := rfl
  trigger := rfl

end Context.Twins

/-- An argument that fits the callee goes where it would go by its name. -/
theorem Frame.bindArgument_byName {σ : Type} [Sink σ] (f : Frame) {u : Template} {a : Argument}
    (ha : a.Fits u) (v : Value) {s : RunState σ} (hs : s.context.Fits u) :
    (f.bindArgument u a v).run.run s = (f.bindArgument u a.byName v).run.run s := by
  obtain hnone | ⟨slot, hslot, hlookup⟩ := ha
  · have hsame : a.byName = a := by
      obtain ⟨name, slot, value⟩ := a
      cases hnone
      rfl
    rw [hsame]
  · have hlt : slot < s.context.values.length := hs.length ▸ SlotMap.lt_of_lookup? hlookup
    have hset : s.context.set a.name v = .ok (s.context.store slot v) := by
      rw [Context.set, hs.slots, hlookup]
      exact if_pos hlt
    -- The callee's context is asked for the name, and has the slot that the call was bound to.
    have hget : (get : Run σ (RunState σ)).run.run s = (.ok s, s) := rfl
    have hnone : a.byName.slot = none := rfl
    have hname : a.byName.name = a.name := rfl
    rw [bindArgument, hslot, bindArgument, hnone, hname]
    dsimp only
    rw [Run.run_bind, hget]
    dsimp only
    rw [hset]
    rfl

section Twins

variable {σ : Type} [Sink σ] {u u' : Template} (hsame : u.Same u')
include hsame

/-- Arguments that are the same by name and fit their callees go to the same slots. -/
theorem InStep.bindArgument {f f' : Frame}
    (hplaceholders : f.options.placeholders = f'.options.placeholders) {a a' : Argument}
    (ha : a.Fits u) (ha' : a'.Fits u') (hname : a.byName = a'.byName) (v : Value) :
    InStep (Context.Twins Eq u u') Eq Eq (f.bindArgument u a v : Run σ Unit)
      (f'.bindArgument u' a' v) := by
  intro s s' hs
  rw [f.bindArgument_byName ha v hs.context.left, f'.bindArgument_byName ha' v hs.context.right,
    hname]
  let L : Lockstep σ σ := InStep.lockstep (Context.Twins.sameSight Eq u u') Eq
  exact Lockstep.bindArgument_same (L := L) (Lockstep.report_of_placeholders hplaceholders)
    (fun _ _ name v h => Context.Twins.set h hsame.name hsame.slots name v) hsame.name rfl rfl v s
    s' hs

theorem InStep.arguments {f f' : Frame}
    (hplaceholders : f.options.placeholders = f'.options.placeholders) {args args' : List Argument}
    (hargs : args.map Argument.byName = args'.map Argument.byName) (hfits : ∀ a ∈ args, a.Fits u)
    (hfits' : ∀ a ∈ args', a.Fits u') :
    List.Forall₂ (fun a a' => (∀ v, InStep (Context.Twins Eq u u') Eq Eq
      (f.bindArgument u a v : Run σ Unit) (f'.bindArgument u' a' v)) ∧ a.value = a'.value)
      args args' := by
  refine (forall₂_of_map_eq hargs).imp ?_
  rintro a a' ⟨ha, ha', hname⟩
  have hvalue : a.value = a'.value := (congrArg Argument.value hname :)
  exact ⟨InStep.bindArgument hsame hplaceholders (hfits a ha) (hfits' a' ha') hname, hvalue⟩

end Twins

theorem Callee.byName_ne_known (c : Callee) {ref : TemplateRef} : c.byName ≠ .known ref := by
  cases c <;> exact nofun

theorem Callee.eq_held_of_byName {c : Callee} {slot : SlotId} (h : c.byName = .held slot) :
    c = .held slot := by
  cases c <;> cases h
  rfl

/-- What a slot holds is called alike in contexts that hold the same. -/
theorem Frame.callee_held (f f' : Frame) (hcatalog : f.world.catalog = f'.world.catalog)
    (hslots : f.template.slots = f'.template.slots) {k k' : Context}
    (hvalues : k.values = k'.values) (slot : SlotId) :
    f.callee k (.held slot) = f'.callee k' (.held slot) := by
  unfold Frame.callee Context.slot?
  rw [hcatalog, hslots, hvalues]

end TemplateEngine

import TemplateEngine.Proofs.Calls.Twins
import TemplateEngine.Proofs.Debug.Drafts
import TemplateEngine.Proofs.Debug.Trigger

/-! Runs in which one template stands in the place of another that does the same. -/
namespace TemplateEngine

/-- A template stands for itself, and the one for the other. -/
inductive StandsFor (t t' : Template) : Template → Template → Prop where
  | self (u : Template) : StandsFor t t' u u
  | other : StandsFor t t' t t'

/-- Worlds that are the same, except that `t'` may be in the second one where `t` is in the first.
-/
structure World.Exchanged (t t' : Template) (w w' : World) : Prop where
  host : w.host = w'.host
  template? (id : TemplateId) :
    Option.Rel (StandsFor t t') (w.catalog.template? id) (w'.catalog.template? id)
  registry? (id : RegistryId) :
    Option.Rel
      (fun r r' => ∀ name, Option.Rel (StandsFor t t') (r.resolve? name) (r'.resolve? name))
      (w.catalog.registry? id) (w'.catalog.registry? id)

theorem optionRel_refl {α : Type} {R : α → α → Prop} (h : ∀ a, R a a) (x : Option α) :
    Option.Rel R x x := by
  cases x with
  | none => exact .none
  | some a => exact .some (h a)

/-- Nothing needs to be in another place: the world can be one and the same. -/
theorem World.Exchanged.refl (t t' : Template) (w : World) : w.Exchanged t t' w where
  host := rfl
  template? _ := optionRel_refl .self _
  registry? _ := optionRel_refl (fun _ _ => optionRel_refl .self _) _

/-- A world of one template, which can call itself by its name. -/
def World.ofProgram (p : Program) : World where
  catalog := ((Catalog.reserve {}).1.publish p).1.keep 0 ⟨[(p.name, ⟨p, 0⟩)]⟩

theorem World.ofProgram_produced {name : String} {source : List Char} {o : CompileOptions}
    {p : Program} (h : compile name source o = .ok p) : (World.ofProgram p).catalog.Produced := by
  refine .keep 0 (.publish (.reserve .empty) h) fun e he => ?_
  obtain rfl := List.mem_singleton.mp he
  exact ⟨0, rfl⟩

theorem World.Exchanged.ofProgram {p p' : Program} (hname : p.name = p'.name) :
    (World.ofProgram p).Exchanged ⟨p, 0⟩ ⟨p', 0⟩ (World.ofProgram p') where
  host := rfl
  template? id := by
    cases id with
    | zero => exact .some .other
    | succ id => exact .none
  registry? id := by
    cases id with
    | zero =>
      refine .some fun name => ?_
      simp only [Registry.resolve?, List.lookup_cons, List.lookup_nil, hname]
      split
      · exact .some .other
      · exact .none
    | succ id => exact .none

theorem Agree.ofOption {α β ε : Type} {R : α → β → Prop} {x : Option α} {x' : Option β} (e : ε)
    (h : Option.Rel R x x') :
    Agree R (x.elim (.error e) .ok) (x'.elim (.error e) .ok : Except ε β) := by
  cases h with
  | none => exact .error e
  | some hab => exact .ok hab

/-- Templates whose programs do the same, with the same tables but for their arenas. -/
structure Template.Twins (T : TwinTables) (t t' : Template) : Prop where
  name : t.name = t'.name
  registry : t.registry = t'.registry
  operations : t.operations = t'.operations
  tables : t.slots = T.slots ∧ t.arena = T.arena
  tables' : t'.slots = T.slots ∧ t'.arena = T.arena'
  instrs : ∃ b b', t.instrs = b.flatten ∧ t'.instrs = b'.flatten ∧ T.Blocks b b'

theorem Draft.Twins.program {d d' : Draft} (h : d.Twins d') (name : String) (o : CompileOptions)
    (id id' : TemplateId) :
    ∃ T, Template.Twins T ⟨d.program name o, id⟩ ⟨d'.program name o, id'⟩ := by
  obtain ⟨T, hbody⟩ := h
  exact ⟨T, rfl, rfl, rfl, ⟨rfl, rfl⟩, ⟨rfl, rfl⟩, _, _, rfl, rfl, hbody⟩

/-- What two templates have in common that stand for each other. -/
structure StandsFor.Common (u u' : Template) : Prop where
  name : u.name = u'.name
  slots : u.slots = u'.slots
  registry : u.registry = u'.registry
  operations : u.operations = u'.operations

theorem StandsFor.common {T : TwinTables} {t t' u u' : Template} (ht : Template.Twins T t t')
    (h : StandsFor t t' u u') : StandsFor.Common u u' := by
  cases h with
  | self => exact ⟨rfl, rfl, rfl, rfl⟩
  | other => exact ⟨ht.name, ht.tables.1.trans ht.tables'.1.symm, ht.registry, ht.operations⟩

/-- Templates in step, in contexts whose slots hold the same. -/
abbrev SlotsInStep (σ : Type) [Sink σ] (u u' : Template) : Lockstep σ σ :=
  InStep.lockstep (Context.Twins.sameSight (fun _ _ => True) u u') AnyEvents

/-- Calls with the same callee and the same arguments. -/
structure SameCalls (σ : Type) [Sink σ] (f f' : Frame) (c c' : Call) : Prop where
  callee : c.callee = c'.callee
  args : List.Forall₂ (fun a a' => (a.name = a'.name ∧ a.slot = a'.slot) ∧
    (SlotsInStep σ f.template f'.template).Operands f f' a.value a'.value) c.args c'.args
  site : c.site = c'.site

section Walk

variable {σ : Type} [Sink σ] {w w' : World} {o : RunOptions} {enter enter' : Enter σ}

/-- A template beside itself. -/
theorem SameCalls.walk_self (hhost : w.host = w'.host) (u : Template)
    (hcall : ∀ c c', SameCalls σ ⟨w, o, u⟩ ⟨w', o, u⟩ c c' →
      (SlotsInStep σ u u).Rel Eq (Frame.call ⟨w, o, u⟩ enter c) (Frame.call ⟨w', o, u⟩ enter' c')) :
    (SlotsInStep σ u u).Rel Eq (Frame.walk ⟨w, o, u⟩ enter 0 u.instrs)
      (Frame.walk ⟨w', o, u⟩ enter' 0 u.instrs) := by
  have hframes : (SlotsInStep σ u u).Frames ⟨w, o, u⟩ ⟨w', o, u⟩ :=
    InStep.frames_of_debug _ hhost rfl rfl rfl rfl fun _ _ _ => InStep.debug
  refine Lockstep.walk (Q := Eq) hframes ?_ 0
    (List.forall₂_same.mpr fun i _ => Instr.alike_self fun c _ => rfl)
  rintro c _ rfl
  refine hcall c c ⟨rfl, List.forall₂_same.mpr fun a _ => ⟨⟨rfl, rfl⟩, ?_⟩, rfl⟩
  exact hframes.operands a.value

variable {T : TwinTables} {t t' : Template}

/-- Nothing but the arena is seen in a different way by two templates that do the same. -/
theorem Template.Twins.sees (ht : Template.Twins T t t') (hhost : w.host = w'.host) {k k' : Context}
    (hk : (SlotsInStep σ t t').contexts k k') :
    T.Sees (Frame.scope ⟨w, o, t⟩ k) (Frame.scope ⟨w', o, t'⟩ k') := by
  obtain ⟨hslots, harena⟩ := ht.tables
  obtain ⟨hslots', harena'⟩ := ht.tables'
  constructor
  · rw [← hslots]
    exact List.prefix_rfl
  · rw [← harena]
    exact List.suffix_rfl
  · rw [← harena']
    exact List.suffix_rfl
  · unfold Frame.scope
    dsimp only
    rw [hhost, hslots, hslots', hk.values, hk.target]

theorem Template.Twins.walk (ht : Template.Twins T t t') (hseamless : Sink.Seamless σ)
    (hhost : w.host = w'.host)
    (hcall : ∀ c c', SameCalls σ ⟨w, o, t⟩ ⟨w', o, t'⟩ c c' →
      (SlotsInStep σ t t').Rel Eq (Frame.call ⟨w, o, t⟩ enter c)
        (Frame.call ⟨w', o, t'⟩ enter' c')) :
    (SlotsInStep σ t t').Rel Eq (Frame.walk ⟨w, o, t⟩ enter 0 t.instrs)
      (Frame.walk ⟨w', o, t'⟩ enter' 0 t'.instrs) := by
  obtain ⟨b, b', hb, hb', hblocks⟩ := ht.instrs
  rw [hb, hb', Frame.walk_flatten (fun _ _ => rfl), Frame.walk_flatten (fun _ _ => rfl)]
  refine hblocks.run ?_ 0 0
  exact {
    seamless := hseamless
    scope := ht.sees hhost
    host := hhost
    operations := ht.operations
    report := Lockstep.report_of_placeholders rfl
    call := fun {c c'} hc => by
      refine hcall c c' ⟨hc.callee, hc.args.imp ?_, hc.site⟩
      intro a a' ha
      refine ⟨⟨ha.name, ha.slot⟩, fun hk => ?_, fun hk => ?_⟩
      · exact ha.value.value (ht.sees hhost hk)
      · exact ha.value.text (ht.sees hhost hk)
    debug := fun _ _ _ _ _ _ => InStep.debug
    mute := fun _ _ _ => InStep.debug_pure }

end Walk

namespace World.Exchanged

variable {σ : Type} [Sink σ] {w w' : World} {t t' : Template} (hw : w.Exchanged t t' w')
include hw

theorem callee (o : RunOptions) {u u' : Template} (hu : StandsFor.Common u u') {k k' : Context}
    (hvalues : k.values = k'.values) (c : Callee) :
    Agree (StandsFor t t') (Frame.callee ⟨w, o, u⟩ k c) (Frame.callee ⟨w', o, u'⟩ k' c) := by
  cases c with
  | known ref => exact .ofOption _ (hw.template? ref.id)
  | named name =>
    rw [Frame.callee, Frame.callee, ← hu.registry]
    cases u.registry with
    | none => exact .error _
    | some id =>
      have hregistry := hw.registry? id
      simp only [Option.bind_some]
      generalize w.catalog.registry? id = r, w'.catalog.registry? id = r' at hregistry ⊢
      cases hregistry with
      | none => exact .error _
      | some hr => exact .ofOption _ (hr name)
  | held slot =>
    rw [Frame.callee, Frame.callee, ← hu.slots, Context.slot?, Context.slot?, ← hvalues]
    dsimp only
    split
    · exact .ofOption _ (hw.template? _)
    · exact .error _

/-- Templates that stand for each other run in step, where each call has a new context. -/
def pairing {T : TwinTables} (ht : Template.Twins T t t') (hseamless : Sink.Seamless σ)
    (o : RunOptions) :
    Pairing w w' o o (fun _ => Run.afresh : Within σ) (fun _ => Run.afresh : Within σ) where
  Pair := StandsFor t t'
  step := SlotsInStep σ
  Calls u u' := SameCalls σ ⟨w, o, u⟩ ⟨w', o, u'⟩
  name h := (h.common ht).name
  report _ := Lockstep.report_of_placeholders rfl
  walk h hcall := by
    cases h with
    | self => exact SameCalls.walk_self hw.host _ hcall
    | other => exact ht.walk hseamless hw.host hcall
  site h := h.site
  refuse _ _ _ := InStep.throw _
  callee h hc hk := by
    rw [← hc.callee]
    refine (hw.callee o (h.common ht) hk.values _).imp ?_
    intro v v' hv
    refine ⟨hv, hc.args.imp ?_⟩
    rintro a a' ⟨⟨hname, hslot⟩, hvalue⟩
    have hcommon := hv.common ht
    refine ⟨fun x => ?_, hvalue⟩
    exact Lockstep.bindArgument_same (L := SlotsInStep σ v v') (Lockstep.report_of_placeholders rfl)
      (fun _ _ name x h => Context.Twins.set h hcommon.name hcommon.slots name x) hcommon.name hname
      hslot x
  within _ _ hu hbody := InStep.afresh (hu.common ht).slots hbody

end World.Exchanged

end TemplateEngine

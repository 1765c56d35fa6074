import TemplateEngine.Proofs.Segments.Twins

/-! The order of the segments of a file makes no difference. It decides which calls are bound when
their callers are compiled, but these lead to the same templates and put arguments into the same
slots as the calls that go by name. -/
namespace TemplateEngine

/-- Two registries that are alive, with the same names, and the same programs under them. -/
structure World.Mirrored (w : World) (id₁ id₂ : RegistryId) (r₁ r₂ : Registry) : Prop where
  left : w.Wired id₁ r₁
  right : w.Wired id₂ r₂
  none_iff {name : String} : r₁.resolve? name = none ↔ r₂.resolve? name = none
  byName {name : String} {t t' : Template} : r₁.resolve? name = some t →
    r₂.resolve? name = some t' → t.byName = t'.byName

/-- Templates that stand for each other: the same one, or two of the same name. -/
def World.Paired (w : World) (r₁ r₂ : Registry) (t t' : Template) : Prop :=
  (w.Knows t ∧ t = t') ∨ ∃ name, r₁.resolve? name = some t ∧ r₂.resolve? name = some t'

namespace World.Mirrored

variable {w : World} {o : RunOptions} {id₁ id₂ : RegistryId} {r₁ r₂ : Registry}
  (M : w.Mirrored id₁ id₂ r₁ r₂) {t t' : Template}
include M

theorem same (h : w.Paired r₁ r₂ t t') : t.Same t' := by
  obtain ⟨-, rfl⟩ | ⟨name, ht, ht'⟩ := h
  · exact ⟨rfl, rfl, rfl, rfl⟩
  · exact Template.same_of_byName (M.byName ht ht')

theorem knows (h : w.Paired r₁ r₂ t t') : w.Knows t ∧ w.Knows t' := by
  obtain ⟨ht, rfl⟩ | ⟨name, ht, ht'⟩ := h
  · exact ⟨ht, ht⟩
  · exact ⟨M.left.knows ht, M.right.knows ht'⟩

end World.Mirrored

/-- Calls at the same place of templates that stand for each other. -/
def World.PairedCalls (r₁ r₂ : Registry) (t t' : Template) (c c' : Call) : Prop :=
  (t = t' ∧ c = c') ∨ ∃ name, r₁.resolve? name = some t ∧ r₂.resolve? name = some t' ∧
    .action (.call c) ∈ t.instrs ∧ .action (.call c') ∈ t'.instrs ∧ c.byName = c'.byName

/-- Two calls lead to templates that stand for each other, where their arguments are bound in step,
or to none for the same reason. -/
def LeadAlike (σ : Type) [Sink σ] (w : World) (o : RunOptions) (r₁ r₂ : Registry) (t t' : Template)
    (c c' : Call) (k k' : Context) : Prop :=
  Agree (fun u u' => w.Paired r₁ r₂ u u' ∧ List.Forall₂ (fun a a' =>
      (∀ v, InStep (Context.Twins Eq u u') Eq Eq (Frame.bindArgument ⟨w, o, t⟩ u a v : Run σ Unit)
        (Frame.bindArgument ⟨w, o, t'⟩ u' a' v)) ∧ a.value = a'.value) c.args c'.args)
    (Frame.callee ⟨w, o, t⟩ k c.callee) (Frame.callee ⟨w, o, t'⟩ k' c'.callee)

/-- A template's own calls lead to the same from contexts that hold the same. -/
theorem leadAlike_self {σ : Type} [Sink σ] (w : World) (o : RunOptions) (r₁ r₂ : Registry)
    {t : Template} (c : Call) {k k' : Context} (hk : Context.Twins Eq t t k k') :
    LeadAlike σ w o r₁ r₂ t t c c k k' := by
  have hcallee : Frame.callee ⟨w, o, t⟩ k c.callee = Frame.callee ⟨w, o, t⟩ k' c.callee := by
    cases c.callee with
    | held slot => exact Frame.callee_held _ _ rfl rfl hk.values slot
    | _ => rfl
  rw [LeadAlike, ← hcallee]
  refine .self fun u hu => ⟨.inl ⟨Frame.knows_callee _ hu, rfl⟩, ?_⟩
  refine List.forall₂_same.mpr fun a _ => ⟨fun v => ?_, rfl⟩
  exact Lockstep.bindArgument_same (L := InStep.lockstep (Context.Twins.sameSight Eq u u) Eq)
    (Lockstep.report_of_placeholders rfl)
    (fun _ _ _ _ h => Context.Twins.set h rfl rfl _ _) rfl rfl rfl v

namespace World.Mirrored

variable {σ : Type} [Sink σ] {w : World} {o : RunOptions} {id₁ id₂ : RegistryId}
  {r₁ r₂ : Registry} (M : w.Mirrored id₁ id₂ r₁ r₂) {t t' : Template} {c c' : Call}
include M

theorem instrs (h : w.Paired r₁ r₂ t t') :
    List.Forall₂ (Instr.Alike (World.PairedCalls r₁ r₂ t t')) t.instrs t'.instrs := by
  obtain ⟨-, rfl⟩ | ⟨name, ht, ht'⟩ := h
  · exact List.forall₂_same.mpr fun i _ => Instr.alike_self fun c _ => .inl ⟨rfl, rfl⟩
  · have hinstrs : t.instrs.map Instr.byName = t'.instrs.map Instr.byName :=
      (congrArg Program.instrs (M.byName ht ht') :)
    refine (forall₂_of_map_eq hinstrs).imp ?_
    rintro i i' ⟨hi, hi', hsame⟩
    cases Instr.alike_of_byName hsame with
    | call hbyName => exact .call (.inr ⟨name, ht, ht', hi, hi', hbyName⟩)
    | same hplain => exact .same hplain

section ByName

variable {caller : String} (ht : r₁.resolve? caller = some t) (ht' : r₂.resolve? caller = some t')
  (hc : .action (.call c) ∈ t.instrs) (hc' : .action (.call c') ∈ t'.instrs)
  (hbyName : c.byName = c'.byName)
include ht ht' hc hc' hbyName

/-- Calls by the same name lead to what the two registries have under it. -/
theorem callee_named {name : String} (hname : c.callee.byName = .named name) (k k' : Context) :
    LeadAlike σ w o r₁ r₂ t t' c c' k k' := by
  have hcallee : c.callee.byName = c'.callee.byName := (congrArg Call.callee hbyName :)
  have hargs : c.args.map Argument.byName = c'.args.map Argument.byName :=
    (congrArg Call.args hbyName :)
  have hname' : c'.callee.byName = .named name := hcallee ▸ hname
  rw [LeadAlike, M.left.callee_eq ht hc hname k, M.right.callee_eq ht' hc' hname' k']
  cases hu : r₁.resolve? name with
  | none =>
    rw [M.none_iff.mp hu]
    exact .error _
  | some u =>
    cases hu' : r₂.resolve? name with
    | none =>
      rw [M.none_iff.mpr hu'] at hu
      cases hu
    | some u' =>
      have hpaired : w.Paired r₁ r₂ u u' := .inr ⟨name, hu, hu'⟩
      refine .ok ⟨hpaired, InStep.arguments (M.same hpaired) rfl hargs ?_ ?_⟩
      · exact fun a ha => M.left.fits ht hc hname hu ha
      · exact fun a ha => M.right.fits ht' hc' hname' hu' ha

/-- Calls of what a slot holds lead to one and the same template. -/
theorem callee_held {slot : SlotId} (hheld : c.callee.byName = .held slot) {k k' : Context}
    (hk : Context.Twins Eq t t' k k') :
    LeadAlike σ w o r₁ r₂ t t' c c' k k' := by
  have hcallees : c.callee.byName = c'.callee.byName := (congrArg Call.callee hbyName :)
  have hargs : c.args.map Argument.byName = c'.args.map Argument.byName :=
    (congrArg Call.args hbyName :)
  have hslot := Callee.eq_held_of_byName hheld
  have hslot' := Callee.eq_held_of_byName (hcallees.symm.trans hheld)
  have hslots : t.slots = t'.slots := (M.same (.inr ⟨caller, ht, ht'⟩)).slots
  have hcallee := Frame.callee_held ⟨w, o, t⟩ ⟨w, o, t'⟩ rfl hslots hk.values slot
  rw [LeadAlike, hslot, hslot', ← hcallee]
  refine .self fun u hu => ⟨.inl ⟨Frame.knows_callee _ hu, rfl⟩, ?_⟩
  refine InStep.arguments ⟨rfl, rfl, rfl, rfl⟩ rfl hargs ?_ ?_
  · exact fun a ha => .inl (M.left.slot_eq_none ht hc hslot ha)
  · exact fun a ha => .inl (M.right.slot_eq_none ht' hc' hslot' ha)

end ByName

/-- Paired calls lead to templates that stand for each other, and put their arguments into the same
slots of these. -/
theorem callee (hc : World.PairedCalls r₁ r₂ t t' c c') {k k' : Context}
    (hk : Context.Twins Eq t t' k k') :
    LeadAlike σ w o r₁ r₂ t t' c c' k k' := by
  obtain ⟨rfl, rfl⟩ | ⟨caller, ht, ht', hcall, hcall', hbyName⟩ := hc
  · exact leadAlike_self w o r₁ r₂ c hk
  · cases hform : c.callee.byName with
    | known ref => exact absurd hform c.callee.byName_ne_known
    | named name => exact M.callee_named ht ht' hcall hcall' hbyName hform k k'
    | held slot => exact M.callee_held ht ht' hcall hcall' hbyName hform hk

theorem frames (o : RunOptions) (h : w.Paired r₁ r₂ t t') :
    (InStep.lockstep (Context.Twins.sameSight Eq t t') Eq : Lockstep σ σ).Frames ⟨w, o, t⟩
      ⟨w, o, t'⟩ := by
  have hsame := M.same h
  exact InStep.frames _ rfl hsame.slots hsame.arena hsame.operations rfl hsame.name
    fun _ _ h => h.trigger

/-- Templates of the two registries run in step, where each call has a new context. -/
def pairing (o : RunOptions) :
    Pairing w w o o (fun _ => Run.afresh : Within σ) (fun _ => Run.afresh : Within σ) where
  Pair := w.Paired r₁ r₂
  step t t' := InStep.lockstep (Context.Twins.sameSight Eq t t') Eq
  Calls := World.PairedCalls r₁ r₂
  name h := (M.same h).name
  report h := (M.frames o h).report
  walk h hcall := Lockstep.walk (M.frames o h) hcall 0 (M.instrs h)
  site hc := by
    obtain ⟨-, rfl⟩ | ⟨-, -, -, -, -, hbyName⟩ := hc
    · rfl
    · exact (congrArg Call.site hbyName :)
  refuse _ _ _ := InStep.throw _
  callee h hc hk := by
    have hlead : LeadAlike σ w o r₁ r₂ _ _ _ _ _ _ := M.callee hc hk
    refine hlead.imp ?_
    rintro u u' ⟨hu, hargs⟩
    refine ⟨hu, hargs.imp ?_⟩
    rintro a a' ⟨hbind, hvalue⟩
    exact ⟨hbind, hvalue ▸ (M.frames o h).operands a.value⟩
  within _ _ hu hbody := InStep.afresh (M.same hu).slots hbody

end World.Mirrored

/-- Puts values into slots by name, one after another. -/
def Context.setAll (c : Context) : List (String × Value) → Except ContextError Context
  | [] => .ok c
  | (name, v) :: rest => do
    let c ← c.set name v
    c.setAll rest

/-- A context for `t` that a run can start in. -/
structure Context.Ready (w : World) (t : Template) (c : Context) : Prop where
  isFor : c.isFor t = true
  sound : c.Sound w.Knows

theorem Context.Ready.set {w : World} {t : Template} {c c' : Context} (h : c.Ready w t)
    {name : String} {v : Value} (hset : c.set name v = .ok c') : c'.Ready w t := by
  refine ⟨?_, h.sound.set hset⟩
  obtain ⟨slot, rfl⟩ := Context.exists_eq_store_of_set hset
  exact h.isFor

theorem Context.setAll_agree {w : World} {t t' : Template} (hsame : t.Same t') {k k' : Context}
    (htwins : Twins Eq t t' k k') (hk : k.Ready w t) (hk' : k'.Ready w t')
    (bindings : List (String × Value)) :
    Agree (fun k k' => Twins Eq t t' k k' ∧ k.Ready w t ∧ k'.Ready w t') (k.setAll bindings)
      (k'.setAll bindings) := by
  induction bindings generalizing k k' with
  | nil => exact .ok ⟨htwins, hk, hk'⟩
  | cons binding rest ih =>
    obtain ⟨name, v⟩ := binding
    rw [setAll, setAll]
    generalize hset : k.set name v = r, hset' : k'.set name v = r',
      htwins.set hsame.name hsame.slots name v = hagree
    cases hagree with
    | error e => exact .error e
    | ok htwins => exact ih htwins (hk.set hset) (hk'.set hset')

/-- What a host program can tell of two runs is the same; the contexts may be of templates with
different numbers. -/
structure Outcome.Alike {σ : Type} (r r' : Outcome σ) : Prop where
  result : r.result = r'.result
  sink : r.sink = r'.sink
  events : r.events = r'.events
  values : r.context.values = r'.context.values

theorem Outcome.Same.alike {σ : Type} {r r' : Outcome σ} (h : r.Same r') : r.Alike r' :=
  ⟨h.result, h.sink, h.events, congrArg (·.values) h.context⟩

namespace Outcome.Alike

variable {σ : Type} {r r' r'' : Outcome σ}

theorem symm (h : r.Alike r') : r'.Alike r :=
  ⟨h.result.symm, h.sink.symm, h.events.symm, h.values.symm⟩

theorem trans (h : r.Alike r') (h' : r'.Alike r'') : r.Alike r'' :=
  ⟨h.result.trans h'.result, h.sink.trans h'.sink, h.events.trans h'.events,
    h.values.trans h'.values⟩

end Outcome.Alike

namespace World.Mirrored

variable {σ : Type} [Sink σ] {w : World} {id₁ id₂ : RegistryId} {r₁ r₂ : Registry}
  (M : w.Mirrored id₁ id₂ r₁ r₂) {t t' : Template} (h : w.Paired r₁ r₂ t t') {k k' : Context}
  (htwins : Context.Twins Eq t t' k k') (hk : k.Ready w t) (hk' : k'.Ready w t')
include M h htwins hk hk'

theorem runAfresh_alike (o : RunOptions) (sink : σ) :
    (runAfresh w o t k sink).Alike (runAfresh w o t' k' sink) := by
  have hruns := (M.pairing (σ := σ) o).runTemplateWith rfl o.maxDepth [t.name] h
  obtain ⟨hagree, hafter⟩ := hruns ⟨k, sink, []⟩ ⟨k', sink, []⟩ ⟨htwins, rfl, rfl⟩
  simp only [runAfresh, Outcome.inContext, hk.isFor, hk'.isFor, if_true, ← (M.same h).name]
  exact ⟨hagree.eq, hafter.sink, hafter.events, hafter.context.values⟩

/-- Templates of the two registries do the same in contexts that hold the same. -/
theorem run_alike (hw : w.catalog.Produced) (o : RunOptions) (sink : σ) :
    (run w o t k sink).Alike (run w o t' k' sink) := by
  obtain ⟨hknown, hknown'⟩ := M.knows h
  have hids := World.distinctIds hw
  -- What calls leave behind is for templates with other numbers on the other side, so each run is
  -- held against one that leaves nothing.
  have hleft := (run_same_runAfresh hids (fun _ h => h) o hknown ⟨rfl, hk.sound, hk.sound⟩ sink).1
  have hright :=
    (run_same_runAfresh hids (fun _ h => h) o hknown' ⟨rfl, hk'.sound, hk'.sound⟩ sink).1
  have hafresh := M.runAfresh_alike h htwins hk hk' o sink
  exact hleft.alike.trans (hafresh.trans hright.alike.symm)

end World.Mirrored

theorem Context.ready_fresh {w : World} (hw : w.catalog.Produced) {t : Template} (ht : w.Knows t) :
    (fresh t).Ready w t where
  isFor := beq_iff_eq.mpr rfl
  sound := sound_fresh (World.distinctIds hw) ht

theorem Context.Ready.aim {w : World} {t : Template} {c : Context} (h : c.Ready w t)
    (target : Value) (trigger : Option TriggerId) : Ready w t { c with target, trigger } where
  isFor := h.isFor
  sound := h.sound.of_shape rfl rfl rfl rfl fun _ => h.sound.subs

section Files

variable {w : World} {o : ReadOptions} {c₁ c₁' c₂ c₂' : Catalog} {name₁ name₂ : String}
  {source₁ source₂ : List Char} {segments₁ segments₂ : List Segment} {id₁ id₂ : RegistryId}
  {r₁ r₂ : Registry}

/-- Files with the same segments have mirrored registries. -/
theorem World.mirrored_of_perm (hw : w.catalog.Produced)
    (hsplit₁ : splitSegments name₁ source₁ = .ok segments₁)
    (hsplit₂ : splitSegments name₂ source₂ = .ok segments₂)
    (hperm : (segments₁.map Segment.content).Perm (segments₂.map Segment.content))
    (h₁ : readTemplates c₁ name₁ source₁ o = .ok (c₁', id₁, r₁))
    (h₂ : readTemplates c₂ name₂ source₂ o = .ok (c₂', id₂, r₂))
    (halive₁ : w.catalog.registry? id₁ = some r₁) (halive₂ : w.catalog.registry? id₂ = some r₂) :
    w.Mirrored id₁ id₂ r₁ r₂ := by
  refine ⟨wired_of_readTemplates hsplit₁ h₁ hw halive₁,
    wired_of_readTemplates hsplit₂ h₂ hw halive₂, ?_, ?_⟩
  · intro name
    rw [resolve?_eq_none_iff hsplit₁ h₁, resolve?_eq_none_iff hsplit₂ h₂,
      (names_perm hperm).mem_iff]
  · intro name t t' ht ht'
    obtain ⟨t'', ht'', hbyName⟩ := byName_eq_of_perm hsplit₁ hsplit₂ hperm h₁ h₂ ht
    obtain rfl : t' = t'' := Option.some.inj (ht'.symm.trans ht'')
    exact hbyName

/-- The order of the segments of a file makes no difference to what its templates do. -/
theorem run_of_perm {σ : Type} [Sink σ] (hw : w.catalog.Produced)
    (hsplit₁ : splitSegments name₁ source₁ = .ok segments₁)
    (hsplit₂ : splitSegments name₂ source₂ = .ok segments₂)
    (hperm : (segments₁.map Segment.content).Perm (segments₂.map Segment.content))
    (h₁ : readTemplates c₁ name₁ source₁ o = .ok (c₁', id₁, r₁))
    (h₂ : readTemplates c₂ name₂ source₂ o = .ok (c₂', id₂, r₂))
    (halive₁ : w.catalog.registry? id₁ = some r₁) (halive₂ : w.catalog.registry? id₂ = some r₂)
    (name : String) :
    (r₁.resolve? name = none ∧ r₂.resolve? name = none) ∨
      ∃ t₁ t₂, r₁.resolve? name = some t₁ ∧ r₂.resolve? name = some t₂ ∧
        ∀ (bindings : List (String × Value)) (target : Value) (trigger : Option TriggerId)
          (ro : RunOptions) (sink : σ),
          Agree (fun k₁ k₂ => (run w ro t₁ { k₁ with target, trigger } sink).Alike
              (run w ro t₂ { k₂ with target, trigger } sink))
            ((Context.fresh t₁).setAll bindings) ((Context.fresh t₂).setAll bindings) := by
  have M := World.mirrored_of_perm hw hsplit₁ hsplit₂ hperm h₁ h₂ halive₁ halive₂
  cases ht₁ : r₁.resolve? name with
  | none => exact .inl ⟨rfl, M.none_iff.mp ht₁⟩
  | some t₁ =>
    cases ht₂ : r₂.resolve? name with
    | none =>
      rw [M.none_iff.mpr ht₂] at ht₁
      cases ht₁
    | some t₂ =>
      refine .inr ⟨t₁, t₂, rfl, rfl, fun bindings target trigger ro sink => ?_⟩
      have hpaired : w.Paired r₁ r₂ t₁ t₂ := .inr ⟨name, ht₁, ht₂⟩
      have hsame := M.same hpaired
      obtain ⟨hknown₁, hknown₂⟩ := M.knows hpaired
      have hbound := Context.setAll_agree hsame (Context.Twins.fresh hsame)
        (Context.ready_fresh hw hknown₁) (Context.ready_fresh hw hknown₂) bindings
      refine Agree.imp ?_ hbound
      rintro k₁ k₂ ⟨htwins, hk₁, hk₂⟩
      exact M.run_alike hpaired (htwins.aim target trigger) (hk₁.aim target trigger)
        (hk₂.aim target trigger) hw ro sink

/-- Two templates that call each other: in one file `a` knows `b` when it is compiled, in the other
`b` knows `a`. -/
theorem run_of_perm_mutual :
    let a := "<:otx:a:x><&x><:call:b:y=x><.otx>"
    let b := "<:otx:b:y>(<&y>)<:call:a:x=y><.otx>"
    ∃ c c' id₁ id₂ r₁ r₂ t₁ t₂ k₁ k₂,
      readTemplates {} "ab" (a ++ b).toList {} = .ok (c, id₁, r₁) ∧
      readTemplates c "ba" (b ++ a).toList {} = .ok (c', id₂, r₂) ∧
      r₁.resolve? "a" = some t₁ ∧ r₂.resolve? "a" = some t₂ ∧
      (Context.fresh t₁).setAll [("x", .int 1)] = .ok k₁ ∧
      (Context.fresh t₂).setAll [("x", .int 1)] = .ok k₂ ∧
      let w : World := { catalog := c' }
      let aim (k : Context) : Context := { k with target := .str "host", trigger := some 0 }
      (run w {} t₁ (aim k₁) ({} : TextSink)).Alike (run w {} t₂ (aim k₂) {}) := by
  intro a b
  have hsegments : ((splitSegments "ab" (a ++ b).toList).toOption.bind fun s₁ =>
      (splitSegments "ba" (b ++ a).toList).toOption.map fun s₂ =>
        decide ((s₁.map Segment.content).Perm (s₂.map Segment.content))) = some true := by
    decide +kernel
  have hfound : ((readTemplates {} "ab" (a ++ b).toList {}).toOption.bind fun x =>
      (readTemplates x.1 "ba" (b ++ a).toList {}).toOption.bind fun y =>
        (x.2.2.resolve? "a").bind fun t =>
          ((Context.fresh t).setAll [("x", .int 1)]).toOption.map fun _ =>
            decide (x.2.1 ≠ y.2.1)) = some true := by
    decide +kernel
  obtain ⟨s₁, hsplit₁, hsegments⟩ := Option.bind_eq_some_iff.mp hsegments
  obtain ⟨s₂, hsplit₂, hperm⟩ := Option.map_eq_some_iff.mp hsegments
  obtain ⟨⟨c, id₁, r₁⟩, h₁, hfound⟩ := Option.bind_eq_some_iff.mp hfound
  obtain ⟨⟨c', id₂, r₂⟩, h₂, hfound⟩ := Option.bind_eq_some_iff.mp hfound
  obtain ⟨t, ht, hfound⟩ := Option.bind_eq_some_iff.mp hfound
  obtain ⟨k₁, hk₁, hids⟩ := Option.map_eq_some_iff.mp hfound
  replace hsplit₁ := eq_ok_of_toOption hsplit₁
  replace hsplit₂ := eq_ok_of_toOption hsplit₂
  replace h₁ := eq_ok_of_toOption h₁
  replace h₂ := eq_ok_of_toOption h₂
  replace hk₁ := eq_ok_of_toOption hk₁
  have hw : ({ catalog := c' } : World).catalog.Produced := .read (.read .empty h₁) h₂
  have halive₁ : c'.registry? id₁ = some r₁ := by
    rw [registry?_readTemplates h₂, if_neg (of_decide_eq_true hids), registry?_of_readTemplates h₁]
  obtain ⟨hnone, -⟩ | ⟨t₁, t₂, ht₁, ht₂, hruns⟩ := run_of_perm (σ := TextSink) hw hsplit₁ hsplit₂
    (of_decide_eq_true hperm) h₁ h₂ halive₁ (registry?_of_readTemplates h₂) "a"
  · rw [hnone] at ht
    cases ht
  · obtain rfl : t₁ = t := Option.some.inj (ht₁.symm.trans ht)
    have hagree := hruns [("x", .int 1)] (.str "host") (some 0) {} {}
    rw [hk₁] at hagree
    generalize hk₂ : (Context.fresh t₂).setAll [("x", .int 1)] = r at hagree
    cases hagree with
    | @ok _ k₂ h => exact ⟨c, c', id₁, id₂, r₁, r₂, t₁, t₂, k₁, k₂, h₁, h₂, ht₁, ht₂, hk₁, hk₂, h⟩

end Files

end TemplateEngine

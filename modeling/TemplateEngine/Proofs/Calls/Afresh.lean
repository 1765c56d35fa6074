import TemplateEngine.Proofs.Calls.Published
import TemplateEngine.Proofs.Lockstep.Contexts

/-! Calls as if each had a new context. That the context of an earlier call is used again for a
later one at the same site cannot be seen in what a run does. -/
namespace TemplateEngine

/-- A call in a new context. The caller's is the same afterwards as before. -/
def Run.afresh {σ : Type} (callee : Template) (body : Run σ Unit) : Run σ Unit :=
  fun s =>
    let (result, after) := body.run { s with context := s.context.forCall callee }
    (result, { after with context := s.context })

/-- Runs a template; each call is made in a new context. -/
def runAfresh {σ : Type} [Sink σ] (w : World) (o : RunOptions) (t : Template) (c : Context)
    (sink : σ) : Outcome σ :=
  .inContext (runTemplateWith (fun _ => Run.afresh) w o o.maxDepth [t.name] t) t c sink

/-- What can be seen of two runs is the same. -/
structure Outcome.Same {σ : Type} (r r' : Outcome σ) : Prop where
  result : r.result = r'.result
  sink : r.sink = r'.sink
  events : r.events = r'.events
  context : r.context.bare = r'.context.bare

namespace Outcome.Same

variable {σ : Type} {r r' r'' : Outcome σ}

theorem symm (h : r.Same r') : r'.Same r :=
  ⟨h.result.symm, h.sink.symm, h.events.symm, h.context.symm⟩

theorem trans (h : r.Same r') (h' : r'.Same r'') : r.Same r'' :=
  ⟨h.result.trans h'.result, h.sink.trans h'.sink, h.events.trans h'.events,
    h.context.trans h'.context⟩

end Outcome.Same

/-- A context for `t` that a host program can have after any uses of it: it was filled, given a
target and a trigger or none, reset, and templates were run in it, whatever the end of those runs
was. -/
inductive Context.Used (known : Template → Prop) (t : Template) : Context → Prop where
  | fresh : Used known t (.fresh t)
  | set {c c' : Context} {name : String} {v : Value} :
    Used known t c → c.set name v = .ok c' → Used known t c'
  | setSlot {c c' : Context} {slot : SlotId} {v : Value} :
    Used known t c → c.setSlot slot v = .ok c' → Used known t c'
  | target {c : Context} (v : Value) : Used known t c → Used known t { c with target := v }
  | trigger {c : Context} (trigger : Option TriggerId) :
    Used known t c → Used known t { c with trigger }
  | reset {c : Context} : Used known t c → Used known t c.reset
  | run {c : Context} {σ : Type} [Sink σ] {w : World} (o : RunOptions) {u : Template} (sink : σ) :
    Used known t c → (∀ u, w.Knows u → known u) → known u →
      Used known t (TemplateEngine.run w o u c sink).context

section

variable {σ : Type} {known : Template → Prop}

/-- Contexts that differ in nothing but what earlier calls left there. -/
structure SameContext (known : Template → Prop) (k k' : Context) : Prop where
  bare : k.bare = k'.bare
  left : k.Sound known
  right : k'.Sound known

namespace SameContext

variable {k k' : Context} (h : SameContext known k k')
include h

theorem values : k.values = k'.values :=
  congrArg (·.values) h.bare

theorem slots : k.slots = k'.slots :=
  congrArg (·.slots) h.bare

theorem name : k.name = k'.name :=
  congrArg (·.name) h.bare

theorem target : k.target = k'.target :=
  congrArg (·.target) h.bare

theorem trigger : k.trigger = k'.trigger :=
  congrArg (·.trigger) h.bare

theorem store (slot : SlotId) (v : Value) :
    SameContext known (k.store slot v) (k'.store slot v) where
  bare := by
    have hstore (k : Context) : (k.store slot v).bare = k.bare.store slot v := rfl
    rw [hstore, hstore, h.bare]
  left := h.left.store slot v
  right := h.right.store slot v

theorem set (name : String) (v : Value) :
    Agree (SameContext known) (k.set name v) (k'.set name v) := by
  unfold Context.set Context.setSlot
  rw [h.slots, h.values, h.name]
  split
  · split
    · exact .ok (h.store _ v)
    · exact .error _
  · exact .error _

theorem enter (hids : DistinctIds known) {u : Template} (hu : known u) (site : SiteId) :
    SameContext known (k.enter site u) (k'.forCall u) where
  bare := by
    rw [h.left.bare_enter hu, Context.forCall, Context.forCall, h.target, h.trigger]
  left := h.left.enter hids hu site
  right := Context.sound_forCall hids k' hu

theorem leave {sub : Context} (hsub : sub.Sound known) (site : SiteId) :
    SameContext known (k.leave site sub) k' where
  bare := h.bare
  left := h.left.leave hsub site
  right := h.right

end SameContext

theorem SameContext.sameSight : SameSight (SameContext known) where
  values h := h.values
  target h := h.target
  store slot v h := h.store slot v

theorem InStep.within (hids : DistinctIds known) {u : Template} (hu : known u)
    {body body' : Run σ Unit} (h : InStep (SameContext known) Eq Eq body body') (site : SiteId) :
    InStep (SameContext known) Eq Eq (Run.within site u body) (Run.afresh u body') := by
  intro s s' hs
  obtain ⟨hagree, hcontext, hsink, hevents⟩ :=
    h { s with context := s.context.enter site u } { s' with context := s'.context.forCall u }
      ⟨hs.context.enter hids hu site, hs.sink, hs.events⟩
  exact ⟨hagree, hs.context.leave hcontext.left site, hsink, hevents⟩

theorem SameContext.callee {f : Frame} (hf : ∀ u, f.world.Knows u → known u) {k k' : Context}
    (h : SameContext known k k') (c : Callee) :
    Agree (fun u u' => u = u' ∧ known u) (f.callee k c) (f.callee k' c) := by
  rw [f.callee_of_values h.values]
  exact .self fun u hu => ⟨rfl, hf u (f.knows_callee hu)⟩

variable [Sink σ]

/-- A template runs in step with itself where each call has a new context. -/
def Pairing.afresh (hids : DistinctIds known) {w : World} (hw : ∀ u, w.Knows u → known u)
    (o : RunOptions) :
    Pairing w w o o (Run.within : Within σ) (fun _ => Run.afresh : Within σ) :=
  .same (InStep.lockstep SameContext.sameSight Eq) known
    (fun _ => InStep.frames _ rfl rfl rfl rfl rfl rfl fun _ _ h => SameContext.trigger h)
    (fun _ _ => InStep.throw _)
    (fun _ _ name v h => SameContext.set h name v) (fun _ _ _ c h => SameContext.callee hw h c)
    (fun site _ _ _ hu h => InStep.within hids hu h site)

/-- A run of a known template against a run with new contexts for calls. -/
theorem run_same_runAfresh (hids : DistinctIds known) {w : World} (hw : ∀ u, w.Knows u → known u)
    (o : RunOptions) {t : Template} (ht : known t) {c c' : Context} (hc : SameContext known c c')
    (sink : σ) :
    (run w o t c sink).Same (runAfresh w o t c' sink) ∧
      (run w o t c sink).context.Sound known := by
  have hfor : c'.isFor t = c.isFor t := by
    have htemplate : c.template = c'.template := congrArg (·.template) hc.bare
    rw [Context.isFor, Context.isFor, htemplate]
  cases hfor' : c.isFor t with
  | false =>
    have htemplate : c.template = c'.template := congrArg (·.template) hc.bare
    simp only [run, runAfresh, Outcome.inContext, hfor, hfor', Bool.false_eq_true, if_false,
      Outcome.ofRun, htemplate]
    exact ⟨⟨rfl, rfl, rfl, hc.bare⟩, hc.left⟩
  | true =>
    simp only [run, runAfresh, Outcome.inContext, hfor, hfor', if_true]
    have hruns := (Pairing.afresh (σ := σ) hids hw o).runTemplateWith rfl o.maxDepth [t.name]
      (t := t) ⟨rfl, ht⟩
    obtain ⟨hagree, hafter⟩ := hruns ⟨c, sink, []⟩ ⟨c', sink, []⟩ ⟨hc, rfl, rfl⟩
    exact ⟨⟨hagree.eq, hafter.sink, hafter.events, hafter.context.bare⟩, hafter.context.left⟩

/-- One and the same context, made for the template with this number. -/
def OneContextFor (id : TemplateId) (k k' : Context) : Prop :=
  k = k' ∧ k.template = id

omit [Sink σ] in
theorem oneContextFor_sameSight (id : TemplateId) : SameSight (OneContextFor id) where
  values h := by rw [h.1]
  target h := by rw [h.1]
  store slot v := by
    rintro ⟨rfl, h⟩
    exact ⟨rfl, h⟩

omit [Sink σ] in
/-- Whatever is done in the context of a call, the caller gets its own one back. -/
theorem InStep.within_oneContextFor (id : TemplateId) (site : SiteId) (u : Template)
    (body : Run σ Unit) :
    InStep (OneContextFor id) Eq Eq (Run.within site u body) (Run.within site u body) := by
  rintro ⟨k, sink, events⟩ ⟨_, _, _⟩ ⟨⟨rfl, hid⟩, rfl, rfl⟩
  exact ⟨.self fun _ _ => rfl, ⟨rfl, hid⟩, rfl, rfl⟩

/-- After a run a context is for the same template as before. -/
theorem template_run (w : World) (o : RunOptions) (t : Template) (c : Context) (sink : σ) :
    (run w o t c sink).context.template = c.template := by
  let L : Lockstep σ σ := InStep.lockstep (oneContextFor_sameSight c.template) Eq
  have hframes : L.Frames ⟨w, o, t⟩ ⟨w, o, t⟩ :=
    InStep.frames _ rfl rfl rfl rfl rfl rfl fun _ _ h => by rw [h.1]
  have hcallee (k k' : Context) (u : Callee) (h : L.contexts k k') :
      Frame.callee ⟨w, o, t⟩ k u = Frame.callee ⟨w, o, t⟩ k' u := by rw [h.1]
  have hruns : L.Rel Eq (runTemplate w o o.maxDepth [t.name] t)
      (runTemplate w o o.maxDepth [t.name] t) := by
    cases o.maxDepth with
    | zero =>
      refine Lockstep.walk_self hframes hcallee (fun u site values => ?_) 0 t.instrs
      exact InStep.throw _
    | succ depth =>
      refine Lockstep.walk_self hframes hcallee (fun u site values => ?_) 0 t.instrs
      exact InStep.within_oneContextFor _ site u _
  unfold run Outcome.inContext
  split
  · exact (hruns ⟨c, sink, []⟩ ⟨c, sink, []⟩ ⟨⟨rfl, rfl⟩, rfl, rfl⟩).2.context.2
  · rfl

theorem Context.Used.template_eq {t : Template} {c : Context} (h : c.Used known t) :
    c.template = t.id := by
  induction h with
  | fresh => rfl
  | set _ hset ih =>
    obtain ⟨slot, rfl⟩ := exists_eq_store_of_set hset
    exact ih
  | setSlot _ hset ih =>
    rw [eq_store_of_setSlot hset]
    exact ih
  | target _ _ ih | trigger _ _ ih | reset _ ih => exact ih
  | run o sink _ hw hu ih => rw [template_run, ih]

/-- A context that was only used is sound, whatever runs were made in it. -/
theorem Context.Used.sound (hids : DistinctIds known) {t : Template} (ht : known t) {c : Context}
    (h : c.Used known t) : c.Sound known := by
  induction h with
  | fresh => exact sound_fresh hids ht
  | set _ hset ih => exact ih.set hset
  | setSlot _ hset ih => exact ih.setSlot hset
  | target v _ ih => exact ih.of_shape rfl rfl rfl rfl fun _ => ih.subs
  | trigger b _ ih => exact ih.of_shape rfl rfl rfl rfl fun _ => ih.subs
  | reset _ ih => exact ih.reset
  | run o sink _ hw hu ih =>
    exact (run_same_runAfresh hids hw o hu ⟨rfl, ih, ih⟩ sink).2

end

/-- A part of a run after which the context is the same as before, but for calls. -/
def Run.Keeps {σ α : Type} (m : Run σ α) : Prop :=
  ∀ s, (m.run.run s).2.context.bare = s.context.bare

namespace Run.Keeps

variable {σ α β : Type}

theorem pure (a : α) : Keeps (Pure.pure a : Run σ α) :=
  fun _ => rfl

theorem bind {m : Run σ α} {k : α → Run σ β} (hm : Keeps m) (hk : ∀ a, Keeps (k a)) :
    Keeps (m >>= k) := by
  intro s
  have hm := hm s
  rw [Run.run_bind]
  generalize m.run.run s = r at hm ⊢
  obtain ⟨result, after⟩ := r
  cases result with
  | error e => exact hm
  | ok a => exact (hk a after).trans hm

theorem get_bind {k : RunState σ → Run σ β} (hk : ∀ s, Keeps (k s)) : Keeps (get >>= k) :=
  fun s => hk s s

theorem within (site : SiteId) (callee : Template) (body : Run σ Unit) :
    Keeps (Run.within site callee body) :=
  fun _ => rfl

variable [Sink σ]

theorem emit (text : String) : Keeps (Run.emit text : Run σ Unit) := by
  intro s
  rw [Run.run_emit]

variable (f : Frame)

theorem report (e : DataError) : Keeps (f.report e : Run σ Unit) := by
  unfold Frame.report
  split
  · exact emit _
  · exact pure _

theorem valueOrNull (o : Operand) : Keeps (f.valueOrNull o : Run σ Value) := by
  refine bind (fun s => rfl) fun scope => ?_
  split
  · exact pure _
  · exact bind (report f _) fun _ => pure _

theorem evaluate (args : List Argument) :
    Keeps (f.evaluate args : Run σ (List (Argument × Value))) := by
  induction args with
  | nil => exact pure _
  | cons a rest ih => exact bind (valueOrNull f _) fun _ => bind ih fun _ => pure _

/-- Whatever the callee does, it does not touch the caller's context. -/
theorem call (body : Template → Run σ Unit) (c : Call) :
    Keeps (f.call (fun callee site bind => Run.within site callee do bind; body callee) c) := by
  refine get_bind fun s => ?_
  split
  · exact report f _
  · exact bind (evaluate f _) fun _ => within _ _ _

end Run.Keeps

/-- It cannot be seen in a run what earlier runs and calls left in its context: it answers, writes,
reports and stores the same in a context without any calls, and the same as if each call were made
in a new context. A call changes nothing of the caller's context. -/
theorem run_of_used {σ : Type} [Sink σ] {known : Template → Prop} (hids : DistinctIds known)
    {w : World} (hw : ∀ u, w.Knows u → known u) (o : RunOptions) {t u : Template} (ht : known t)
    (hu : known u) {c : Context} (hc : c.Used known t) (sink : σ) :
    (∀ c' : Context, c'.bare = c.bare → (∀ sub ∈ c'.subs, sub = none) →
        (run w o u c sink).Same (run w o u c' sink)) ∧
      (run w o u c sink).Same (runAfresh w o u c sink) ∧
      ∀ (f : Frame) (body : Template → Run σ Unit) (call : Call),
        Run.Keeps
          (f.call (fun callee site bind => Run.within site callee do bind; body callee) call) := by
  have hsound := hc.sound hids ht
  have hsame := (run_same_runAfresh hids hw o hu ⟨rfl, hsound, hsound⟩ sink).1
  refine ⟨?_, hsame, fun f body call => Run.Keeps.call f body call⟩
  intro c' hbare hsubs
  have hvalues : c'.values = c.values := congrArg (·.values) hbare
  have hsound' : c'.Sound known := by
    refine hsound.of_shape (congrArg (·.template) hbare) (congrArg (·.name) hbare)
      (congrArg (·.slots) hbare) (congrArg List.length hvalues) fun sub hsub => ?_
    cases hsubs _ hsub
  have hleft := (run_same_runAfresh hids hw o hu ⟨hbare.symm, hsound, hsound'⟩ sink).1
  have hright := (run_same_runAfresh hids hw o hu ⟨rfl, hsound', hsound'⟩ sink).1
  exact hleft.trans hright.symm

/-- The call of `b` is made twice, and the second run finds its context. -/
theorem run_of_used_twice :
    let source := "<:otx:b:x><&x><.otx><:otx:a><:set:i=1><:call:b:x=i><.otx>"
    ∃ catalog id r a, readTemplates {} "f" source.toList {} = .ok (catalog, id, r) ∧
      r.resolve? "a" = some a ∧
      let w : World := { catalog }
      let c := (run w {} a (.fresh a) ({} : TextSink)).context
      (run w {} a c ({} : TextSink)).Same (run w {} a { c with subs := [] } {}) ∧
        (run w {} a c ({} : TextSink)).Same (runAfresh w {} a c {}) := by
  intro source
  have hfound : ((readTemplates {} "f" source.toList {}).toOption.bind fun x =>
      x.2.2.resolve? "a").isSome = true := by decide +kernel
  cases hread : readTemplates {} "f" source.toList {} with
  | error e =>
    rw [hread] at hfound
    cases hfound
  | ok x =>
    obtain ⟨catalog, id, r⟩ := x
    rw [hread] at hfound
    obtain ⟨a, ha⟩ := Option.isSome_iff_exists.mp hfound
    refine ⟨catalog, id, r, a, rfl, ha, ?_⟩
    intro w c
    have hw : w.catalog.Produced := .read .empty hread
    have hknown : w.Knows a := .inr ⟨id, r, "a", registry?_of_readTemplates hread, ha⟩
    have hused : c.Used w.Knows a := .run {} ({} : TextSink) .fresh (fun _ h => h) hknown
    obtain ⟨hbare, hafresh, -⟩ :=
      run_of_used (World.distinctIds hw) (fun _ h => h) {} hknown hknown hused ({} : TextSink)
    exact ⟨hbare _ rfl (fun _ h => nomatch h), hafresh⟩

end TemplateEngine

import TemplateEngine.Proofs.Calls.Afresh
import TemplateEngine.Proofs.References.Program

/-! The shape of a context. It has a place for each slot and for each call site of its template,
whatever was done with it, and so have the contexts that its calls left there. What a reset leaves
of it is therefore what a new context has. -/
namespace TemplateEngine

namespace Context

/-- A context has the places that the template it is for asks for, and so have the contexts of calls
in it. -/
inductive Sized (known : Template → Prop) : Context → Prop where
  | intro {t : Template} {c : Context} : known t → c.isFor t → c.Fits t →
    c.subs.length = t.callSites → (∀ sub, some sub ∈ c.subs → Sized known sub) → Sized known c

/-- A context for `t` with the places that `t` asks for. -/
structure SizedFor (known : Template → Prop) (t : Template) (c : Context) : Prop where
  isFor : c.isFor t
  fits : c.Fits t
  sites : c.subs.length = t.callSites
  subs : ∀ sub, some sub ∈ c.subs → sub.Sized known

variable {known : Template → Prop} {t u : Template} {c c' sub : Context}

theorem Sized.exists_sizedFor (h : c.Sized known) : ∃ t, known t ∧ c.SizedFor known t := by
  cases h with
  | intro ht hfor hfits hsites hsubs => exact ⟨_, ht, hfor, hfits, hsites, hsubs⟩

theorem sizedFor_fresh : (fresh t).SizedFor known t where
  isFor := beq_self_eq_true t.id
  fits := ⟨rfl, rfl, List.length_replicate⟩
  sites := List.length_replicate
  subs sub hsub := by cases List.eq_of_mem_replicate hsub

theorem length_keep {subs : List (Option Context)} {site : SiteId} (h : site < subs.length) :
    (leave.keep sub subs site).length = subs.length := by
  fun_induction leave.keep sub subs site with
  | case1 | case2 => cases h
  | case3 => rfl
  | case4 first rest site ih =>
    rw [List.length_cons, ih (Nat.lt_of_succ_lt_succ h), List.length_cons]

theorem length_le_keep (sub : Context) (subs : List (Option Context)) (site : SiteId) :
    subs.length ≤ (leave.keep sub subs site).length := by
  fun_induction leave.keep sub subs site with
  | case1 | case2 => exact Nat.zero_le _
  | case3 => exact Nat.le_refl _
  | case4 first rest site ih => exact Nat.succ_le_succ ih

namespace SizedFor

variable (h : c.SizedFor known t)
include h

theorem sized (ht : known t) : c.Sized known :=
  .intro ht h.isFor h.fits h.sites h.subs

/-- Values are counted only, and target and tracing do not matter. -/
theorem of_shape (htemplate : c'.template = c.template) (hname : c'.name = c.name)
    (hslots : c'.slots = c.slots) (hvalues : c'.values.length = c.values.length)
    (hsites : c'.subs.length = c.subs.length)
    (hsubs : ∀ sub, some sub ∈ c'.subs → sub.Sized known) : c'.SizedFor known t where
  isFor := by
    rw [Context.isFor, htemplate]
    exact h.isFor
  fits := ⟨hname.trans h.fits.name, hslots.trans h.fits.slots, hvalues.trans h.fits.length⟩
  sites := hsites.trans h.sites
  subs := hsubs

theorem store (slot : SlotId) (v : Value) : (c.store slot v).SizedFor known t :=
  h.of_shape rfl rfl rfl List.length_set rfl h.subs

theorem setSlot {slot : SlotId} {v : Value} (hset : c.setSlot slot v = .ok c') :
    c'.SizedFor known t := by
  rw [eq_store_of_setSlot hset]
  exact h.store slot v

theorem set {name : String} {v : Value} (hset : c.set name v = .ok c') : c'.SizedFor known t := by
  obtain ⟨slot, rfl⟩ := exists_eq_store_of_set hset
  exact h.store slot v

theorem clearSlots : c.clearSlots.SizedFor known t :=
  h.of_shape rfl rfl rfl (List.length_map _) rfl h.subs

theorem aimed (target : Value) (trigger : Option TriggerId) :
    ({ c with target, trigger } : Context).SizedFor known t :=
  h.of_shape rfl rfl rfl rfl rfl h.subs

theorem reset : c.reset.SizedFor known t := by
  refine h.of_shape rfl rfl rfl (List.length_map _) (List.length_map _) fun sub hsub => ?_
  obtain ⟨_, -, hnone⟩ := List.mem_map.mp hsub
  cases hnone

/-- Nothing is left of the uses of a context that is reset. -/
theorem reset_eq : c.reset = c.forCall t := by
  have hvalues : c.values.map (fun _ => Value.null) = List.replicate t.slots.size .null := by
    rw [List.map_const', h.fits.length]
  have hsubs : c.subs.map (fun _ => (none : Option Context)) = List.replicate t.callSites none := by
    rw [List.map_const', h.sites]
  simp only [Context.reset, Context.clearSlots, forCall, fresh, hvalues, hsubs, h.fits.name,
    h.fits.slots, beq_iff_eq.mp h.isFor]

/-- The context of a call has the places that the callee asks for, also one that is used again. -/
theorem enter (hids : DistinctIds known) (hu : known u) (site : SiteId) :
    (c.enter site u).SizedFor known u := by
  obtain hfresh | ⟨sub, hsub, hfor, henter⟩ := c.enter_cases site u
  · rw [hfresh]
    exact sizedFor_fresh.aimed c.target c.trigger
  · obtain ⟨v, hv, hsized⟩ := (h.subs sub hsub).exists_sizedFor
    obtain rfl : v = u :=
      hids v u hv hu ((beq_iff_eq.mp hsized.isFor).symm.trans (beq_iff_eq.mp hfor))
    rw [henter]
    exact hsized.clearSlots.aimed c.target c.trigger

theorem leave (hsub : sub.Sized known) {site : SiteId} (hsite : site < t.callSites) :
    (c.leave site sub).SizedFor known t := by
  refine h.of_shape rfl rfl rfl rfl (length_keep (h.sites ▸ hsite)) fun x hx => ?_
  obtain hmem | rfl := mem_keep hx
  · exact h.subs x hmem
  · exact hsub

end SizedFor

end Context

/-- A compiled template numbers its calls from zero on. -/
theorem Template.IsCompiled.site_lt {t : Template} (ht : t.IsCompiled) {c : Call}
    (hc : .action (.call c) ∈ t.instrs) : c.site < t.callSites := by
  obtain ⟨source, o, hcompile⟩ := ht
  have hmem : c.site ∈ t.instrs.filterMap Instr.site? := List.mem_filterMap.mpr ⟨_, hc, rfl⟩
  rw [(wellReferenced_of_compile hcompile).sites] at hmem
  exact List.mem_range.mp hmem

/-- One and the same context, with the places that this template asks for. -/
def OneSized (known : Template → Prop) (t : Template) (k k' : Context) : Prop :=
  k = k' ∧ k.SizedFor known t

section

variable {σ : Type} {known : Template → Prop}

variable (known) in
theorem oneSized_sameSight (t : Template) : SameSight (OneSized known t) where
  values h := by rw [h.1]
  target h := by rw [h.1]
  store slot v := by
    rintro ⟨rfl, h⟩
    exact ⟨rfl, h.store slot v⟩

theorem OneSized.set {t : Template} {k k' : Context} (h : OneSized known t k k') (name : String)
    (v : Value) : Agree (OneSized known t) (k.set name v) (k'.set name v) := by
  obtain ⟨rfl, h⟩ := h
  exact .self fun c hset => ⟨rfl, h.set hset⟩

/-- A call at one of the sites of its template leaves as many sites as there were. -/
theorem InStep.within_oneSized (hids : DistinctIds known) {t u : Template} (hu : known u)
    {site : SiteId} (hsite : site < t.callSites) {body : Run σ Unit}
    (h : InStep (OneSized known u) Eq Eq body body) :
    InStep (OneSized known t) Eq Eq (Run.within site u body) (Run.within site u body) := by
  rintro ⟨k, sink, events⟩ ⟨_, _, _⟩ ⟨⟨rfl, hk⟩, rfl, rfl⟩
  obtain ⟨-, hafter⟩ := h ⟨k.enter site u, sink, events⟩ ⟨k.enter site u, sink, events⟩
    ⟨⟨rfl, hk.enter hids hu site⟩, rfl, rfl⟩
  refine ⟨.self fun _ _ => rfl, ⟨rfl, ?_⟩, rfl, rfl⟩
  exact hk.leave (hafter.context.2.sized hu) hsite

variable [Sink σ] (hids : DistinctIds known) (hcompiled : ∀ u, known u → u.IsCompiled) {w : World}
  (hw : ∀ u, w.Knows u → known u) (o : RunOptions)
include hcompiled hw

theorem InStep.walk_oneSized {t : Template} (ht : known t) {enter : Enter σ}
    (henter : ∀ u site values, known u → site < t.callSites →
      InStep (OneSized known t) Eq Eq (enter u site (Frame.bindArguments ⟨w, o, t⟩ u values))
        (enter u site (Frame.bindArguments ⟨w, o, t⟩ u values))) :
    InStep (OneSized known t) Eq Eq (Frame.walk ⟨w, o, t⟩ enter 0 t.instrs)
      (Frame.walk ⟨w, o, t⟩ enter 0 t.instrs) := by
  let L : Lockstep σ σ := InStep.lockstep (oneSized_sameSight known t) Eq
  have hframes : L.Frames ⟨w, o, t⟩ ⟨w, o, t⟩ :=
    InStep.frames _ rfl rfl rfl rfl rfl rfl fun _ _ h => by rw [h.1]
  refine L.walk (Q := fun c c' => c = c' ∧ c.site < t.callSites) hframes ?_ 0 ?_
  · rintro c _ ⟨rfl, hsite⟩
    refine hframes.call (U := fun u u' => u = u' ∧ known u) (B := fun _ _ => Eq) ?_ ?_
    · rintro k _ ⟨rfl, -⟩
      exact .self fun u hu => ⟨⟨rfl, hw u (Frame.knows_callee _ hu)⟩,
        List.forall₂_same.mpr fun _ _ => ⟨rfl, rfl⟩⟩
    · rintro u _ ⟨rfl, hu⟩ values values' hvalues
      have heq : values = values' :=
        List.forall₂_eq_eq_eq ▸ hvalues.imp fun x y hxy => Prod.ext hxy.1 hxy.2
      rw [heq]
      exact henter u c.site values' hu hsite
  · exact List.forall₂_same.mpr fun i hi =>
      Instr.alike_self fun c hc => ⟨rfl, (hcompiled t ht).site_lt (hc ▸ hi)⟩

include hids

/-- A run leaves the places of its context as they were, at whatever instruction it ends. -/
theorem runTemplate_oneSized (depth : Nat) (chain : List String) {t : Template} (ht : known t) :
    InStep (OneSized known t) Eq Eq (runTemplate w o depth chain t : Run σ Unit)
      (runTemplate w o depth chain t) := by
  induction depth generalizing chain t with
  | zero => exact InStep.walk_oneSized hcompiled hw o ht fun _ _ _ _ _ => InStep.throw _
  | succ depth ih =>
    refine InStep.walk_oneSized hcompiled hw o ht fun u site values hu hsite => ?_
    let L : Lockstep σ σ := InStep.lockstep (oneSized_sameSight known u) Eq
    have hbind : L.Rel Eq (Frame.bindArguments ⟨w, o, t⟩ u values)
        (Frame.bindArguments ⟨w, o, t⟩ u values) := by
      refine Lockstep.bindArguments (B := Eq) ?_ (List.forall₂_same.mpr fun _ _ => rfl)
      rintro x _ rfl
      exact Lockstep.bindArgument_same (Lockstep.report_of_placeholders rfl)
        (fun _ _ name v h => OneSized.set h name v) rfl rfl rfl x.2
    exact InStep.within_oneSized hids hu hsite (L.bind hbind fun _ _ _ => ih _ hu)

theorem Context.SizedFor.run {t u : Template} {c : Context} (ht : known t) (hu : known u)
    (h : c.SizedFor known t) (sink : σ) : (run w o u c sink).context.SizedFor known t := by
  unfold TemplateEngine.run Outcome.inContext
  split
  · next hfor =>
    obtain rfl : t = u :=
      hids t u ht hu ((beq_iff_eq.mp h.isFor).symm.trans (beq_iff_eq.mp hfor))
    exact (runTemplate_oneSized hids hcompiled hw o o.maxDepth [t.name] ht ⟨c, sink, []⟩
      ⟨c, sink, []⟩ ⟨⟨rfl, h⟩, rfl, rfl⟩).2.context.2
  · exact h

end

/-- A context that a change was tried on, which is still as it was if the change failed. -/
def Context.tried (c : Context) (change : Except ContextError Context) : Context :=
  change.toOption.getD c

theorem Context.Used.tried {known : Template → Prop} {t : Template} {c : Context}
    (h : c.Used known t) {change : Except ContextError Context}
    (hchange : ∀ c', change = .ok c' → c'.Used known t) : (c.tried change).Used known t := by
  cases change with
  | error e => exact h
  | ok c' => exact hchange c' rfl

/-- The uses of a context leave the places in it that it was made with. -/
theorem Context.Used.sizedFor {known : Template → Prop} (hids : DistinctIds known)
    (hcompiled : ∀ u, known u → u.IsCompiled) {t : Template} (ht : known t) {c : Context}
    (h : c.Used known t) : c.SizedFor known t := by
  induction h with
  | fresh => exact sizedFor_fresh
  | set _ hset ih => exact ih.set hset
  | setSlot _ hset ih => exact ih.setSlot hset
  | target v _ ih => exact ih.aimed v _
  | trigger b _ ih => exact ih.aimed _ b
  | reset _ ih => exact ih.reset
  | run o sink _ hw hu ih => exact ih.run hids hcompiled hw o ht hu sink

/-- A context that was used in any way has a place for each slot and each call site of its template,
and the contexts of calls in it have those of theirs. A reset makes it the same as a new context
with its target and its trigger. -/
theorem reset_of_used {known : Template → Prop} (hids : DistinctIds known)
    (hcompiled : ∀ u, known u → u.IsCompiled) {t : Template} (ht : known t) {c : Context}
    (hc : c.Used known t) :
    c.values.length = t.slots.size ∧ c.subs.length = t.callSites ∧
      (∀ sub, some sub ∈ c.subs → sub.Sized known) ∧
      c.reset = { Context.fresh t with target := c.target, trigger := c.trigger } := by
  have hsized := hc.sizedFor hids hcompiled ht
  exact ⟨hsized.fits.length, hsized.sites, hsized.subs, hsized.reset_eq⟩

/-- A context on which changes failed, and in which one run reached the limit of nested calls and
another one did not. -/
theorem reset_of_used_refused :
    let source := "<:otx:b:x><&x><.otx><:otx:a><:set:i=1><:call:b:x=i><.otx>"
    ∃ catalog id r a, readTemplates {} "f" source.toList {} = .ok (catalog, id, r) ∧
      r.resolve? "a" = some a ∧
      let w : World := { catalog }
      let c := (Context.fresh a).tried ((Context.fresh a).set "absent" .null)
      let c := { c.tried (c.setSlot 7 .null) with target := .int 3, trigger := some 0 }
      let c := (run w { maxDepth := 0 } a c ({} : TextSink)).context
      let c := (run w {} a c ({} : TextSink)).context
      c.values.length = a.slots.size ∧ c.subs.length = a.callSites ∧
        (∀ sub, some sub ∈ c.subs → sub.Sized w.Knows) ∧
        c.reset = { Context.fresh a with target := c.target, trigger := c.trigger } := by
  intro source
  have hfound : ((readTemplates {} "f" source.toList {}).toOption.bind fun x =>
      x.2.2.resolve? "a").isSome = true := by decide +kernel
  cases hread : readTemplates {} "f" source.toList {} with
  | error e =>
    rw [hread] at hfound
    cases hfound
  | ok x =>
    obtain ⟨catalog, id, r⟩ := x
    rw [hread] at hfound
    obtain ⟨a, ha⟩ := Option.isSome_iff_exists.mp hfound
    refine ⟨catalog, id, r, a, rfl, ha, ?_⟩
    intro w c₁ c₂ c₃ c₄
    have hw : w.catalog.Produced := .read .empty hread
    have hknown : w.Knows a := .inr ⟨id, r, "a", registry?_of_readTemplates hread, ha⟩
    have hfirst : c₁.Used w.Knows a := Context.Used.fresh.tried fun _ => .set .fresh
    have hsecond : c₂.Used w.Knows a :=
      .trigger (some 0) (.target (.int 3) (hfirst.tried fun _ => .setSlot hfirst))
    have hused : c₄.Used w.Knows a :=
      .run {} ({} : TextSink)
        (.run { maxDepth := 0 } ({} : TextSink) hsecond (fun _ h => h) hknown)
        (fun _ h => h) hknown
    exact reset_of_used (World.distinctIds hw) (fun _ => World.Knows.isCompiled hw) hknown hused

end TemplateEngine

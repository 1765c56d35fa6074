import TemplateEngine.Run.Context

/-! What the contexts that calls leave behind have to do with the templates they were made for. It
is enough to make a context that is used again, once its slots are cleared, as good as a new one. -/
namespace TemplateEngine

/-- No two of these templates have the same number. -/
def DistinctIds (known : Template → Prop) : Prop :=
  ∀ u u', known u → known u' → u.id = u'.id → u = u'

namespace Context

/-- All of a context but the calls that were made from it. -/
def bare (c : Context) : Context :=
  { c with subs := [] }

/-- The context of a call in which nothing has happened yet. -/
def forCall (c : Context) (u : Template) : Context :=
  { fresh u with target := c.target, trigger := c.trigger }

/-- What is fixed about a context for `t`. -/
structure Fits (c : Context) (t : Template) : Prop where
  name : c.name = t.name
  slots : c.slots = t.slots
  length : c.values.length = t.slots.size

/-- A context fits each known template that it is for, and so do all contexts of calls in it. -/
inductive Sound (known : Template → Prop) : Context → Prop where
  | intro {c : Context} : (∀ u, known u → c.isFor u = true → c.Fits u) →
    (∀ sub, some sub ∈ c.subs → Sound known sub) → Sound known c

variable {known : Template → Prop} {c c' : Context}

theorem Sound.fits (h : c.Sound known) {u : Template} (hu : known u) (hfor : c.isFor u = true) :
    c.Fits u := by
  cases h with
  | intro hfits hsubs => exact hfits u hu hfor

theorem Sound.subs (h : c.Sound known) {sub : Context} (hsub : some sub ∈ c.subs) :
    sub.Sound known := by
  cases h with
  | intro hfits hsubs => exact hsubs sub hsub

/-- Soundness asks nothing of the values, the target and the tracing. -/
theorem Sound.of_shape (h : c.Sound known) (htemplate : c'.template = c.template)
    (hname : c'.name = c.name) (hslots : c'.slots = c.slots)
    (hlength : c'.values.length = c.values.length) (hsubs : ∀ sub, some sub ∈ c'.subs →
      sub.Sound known) : c'.Sound known := by
  refine .intro (fun u hu hfor => ?_) hsubs
  rw [isFor, htemplate] at hfor
  obtain ⟨hname', hslots', hlength'⟩ := h.fits hu hfor
  exact ⟨hname.trans hname', hslots.trans hslots', hlength.trans hlength'⟩

theorem sound_fresh (hids : DistinctIds known) {t : Template} (ht : known t) :
    (fresh t).Sound known := by
  refine .intro (fun u hu hfor => ?_) (fun sub hsub => ?_)
  · obtain rfl : t = u := hids t u ht hu (beq_iff_eq.mp hfor)
    exact ⟨rfl, rfl, List.length_replicate⟩
  · cases List.eq_of_mem_replicate hsub

theorem sound_forCall (hids : DistinctIds known) (c : Context) {u : Template} (hu : known u) :
    (c.forCall u).Sound known :=
  (sound_fresh hids hu).of_shape rfl rfl rfl rfl fun _ => (sound_fresh hids hu).subs

theorem Sound.store (h : c.Sound known) (slot : SlotId) (v : Value) :
    (c.store slot v).Sound known :=
  h.of_shape rfl rfl rfl List.length_set fun _ => h.subs

theorem eq_store_of_setSlot {slot : SlotId} {v : Value} (h : c.setSlot slot v = .ok c') :
    c' = c.store slot v := by
  unfold setSlot at h
  split at h <;> cases h
  rfl

/-- A value that is set by name is stored in some slot. -/
theorem exists_eq_store_of_set {name : String} {v : Value} (h : c.set name v = .ok c') :
    ∃ slot, c' = c.store slot v := by
  unfold set at h
  split at h
  · exact ⟨_, eq_store_of_setSlot h⟩
  · cases h

theorem Sound.setSlot (h : c.Sound known) {slot : SlotId} {v : Value}
    (hset : c.setSlot slot v = .ok c') : c'.Sound known := by
  rw [eq_store_of_setSlot hset]
  exact h.store slot v

theorem Sound.set (h : c.Sound known) {name : String} {v : Value} (hset : c.set name v = .ok c') :
    c'.Sound known := by
  obtain ⟨slot, rfl⟩ := exists_eq_store_of_set hset
  exact h.store slot v

theorem Sound.clearSlots (h : c.Sound known) : c.clearSlots.Sound known :=
  h.of_shape rfl rfl rfl (List.length_map _) fun _ => h.subs

theorem Sound.reset (h : c.Sound known) : c.reset.Sound known := by
  refine h.of_shape rfl rfl rfl (List.length_map _) fun sub hsub => ?_
  obtain ⟨_, -, hnone⟩ := List.mem_map.mp hsub
  cases hnone

/-- A call gets a fresh context, or what an earlier call of the same template left there. -/
theorem enter_cases (c : Context) (site : SiteId) (u : Template) :
    c.enter site u = c.forCall u ∨ ∃ sub, some sub ∈ c.subs ∧ sub.isFor u = true ∧
      c.enter site u = { sub.clearSlots with target := c.target, trigger := c.trigger } := by
  unfold enter
  cases hkept : c.subs[site]?.join.filter (·.isFor u) with
  | none => exact .inl rfl
  | some sub =>
    obtain ⟨hjoin, hfor⟩ := Option.filter_eq_some_iff.mp hkept
    obtain ⟨entry, hentry, rfl⟩ := Option.bind_eq_some_iff.mp hjoin
    exact .inr ⟨sub, List.mem_of_getElem? hentry, hfor, rfl⟩

/-- A context that is used again differs from a fresh one in nothing but its calls. -/
theorem Sound.bare_enter (h : c.Sound known) {u : Template} (hu : known u) (site : SiteId) :
    (c.enter site u).bare = (c.forCall u).bare := by
  obtain hfresh | ⟨sub, hsub, hfor, henter⟩ := c.enter_cases site u
  · rw [hfresh]
  · obtain ⟨hname, hslots, hlength⟩ := (h.subs hsub).fits hu hfor
    have hvalues : sub.values.map (fun _ => Value.null) = List.replicate u.slots.size .null := by
      rw [List.map_const', hlength]
    rw [henter]
    simp only [bare, Context.clearSlots, forCall, fresh, hname, hslots, hvalues, beq_iff_eq.mp hfor]

theorem Sound.enter (h : c.Sound known) (hids : DistinctIds known) {u : Template} (hu : known u)
    (site : SiteId) : (c.enter site u).Sound known := by
  obtain hfresh | ⟨sub, hsub, -, henter⟩ := c.enter_cases site u
  · rw [hfresh]
    exact sound_forCall hids c hu
  · rw [henter]
    have hclear := (h.subs hsub).clearSlots
    exact hclear.of_shape rfl rfl rfl rfl fun _ => hclear.subs

theorem mem_keep {sub x : Context} {subs : List (Option Context)} {site : SiteId}
    (h : some x ∈ leave.keep sub subs site) : some x ∈ subs ∨ x = sub := by
  fun_induction leave.keep sub subs site with
  | case1 => exact .inr (Option.some.inj (List.mem_singleton.mp h))
  | case2 site ih =>
    obtain hnone | hmem := List.mem_cons.mp h
    · cases hnone
    · exact ih hmem
  | case3 first rest =>
    obtain hsub | hmem := List.mem_cons.mp h
    · exact .inr (Option.some.inj hsub)
    · exact .inl (List.mem_cons_of_mem _ hmem)
  | case4 first rest site ih =>
    obtain hfirst | hmem := List.mem_cons.mp h
    · exact .inl (hfirst ▸ List.mem_cons_self)
    · exact (ih hmem).imp_left (List.mem_cons_of_mem _)

theorem Sound.leave (h : c.Sound known) {sub : Context} (hsub : sub.Sound known) (site : SiteId) :
    (c.leave site sub).Sound known := by
  refine h.of_shape rfl rfl rfl rfl fun x hx => ?_
  obtain hmem | rfl := mem_keep hx
  · exact h.subs hmem
  · exact hsub

end Context

end TemplateEngine

import TemplateEngine.Proofs.Calls.Sized

/-! What a run leaves alone. It puts values into no other slots of its context than the targets of
its assignments and the two slots of each of its loops; whoever it calls works in a context of its
own. This is so wherever the run ends. -/
namespace TemplateEngine

/-- The instruction puts values into this slot. -/
def Instr.Assigns (slot : SlotId) : Instr → Prop
  | .action (.set target _) => slot = target
  | .loop header _ => slot = header.entry ∨ slot = header.next
  | _ => False

/-- Some instruction of the program puts values into this slot. -/
def Program.Assigns (p : Program) (slot : SlotId) : Prop :=
  ∃ i ∈ p.instrs, i.Assigns slot

instance (slot : SlotId) : DecidablePred (Instr.Assigns slot)
  | .action (.set target _) => inferInstanceAs (Decidable (slot = target))
  | .loop header _ => inferInstanceAs (Decidable (slot = header.entry ∨ slot = header.next))
  | .action (.literal _) | .action (.variable _) | .action (.call _) | .action (.exec _ _)
  | .action (.debug _ _) | .branch .. | .otherwise | .endLoop => .isFalse id

instance (p : Program) (slot : SlotId) : Decidable (p.Assigns slot) :=
  inferInstanceAs (Decidable (∃ i ∈ p.instrs, i.Assigns slot))

/-- What a part of a run may change in its context: values are put into some slots at most, and
calls are made at some first sites at most. -/
structure Reach where
  assigned : SlotId → Prop
  sites : Nat

namespace Reach

variable (R : Reach)

/-- The instruction stays within reach, wherever it is carried out. -/
structure Covers (i : Instr) : Prop where
  assigned {slot : SlotId} : i.Assigns slot → R.assigned slot
  site {c : Call} : i = .action (.call c) → c.site < R.sites

/-- `after` is `c` after a part of a run with this reach. -/
structure Leads (c after : Context) : Prop where
  template : after.template = c.template
  target : after.target = c.target
  trigger : after.trigger = c.trigger
  size : after.values.length = c.values.length
  slot {slot : SlotId} : ¬R.assigned slot → after.slot? slot = c.slot? slot
  kept : c.subs.length ≤ after.subs.length
  sites : R.sites ≤ c.subs.length → after.subs.length = c.subs.length

variable {R} {c c' c'' : Context}

theorem Leads.refl (c : Context) : R.Leads c c where
  template := rfl
  target := rfl
  trigger := rfl
  size := rfl
  slot _ := rfl
  kept := Nat.le_refl _
  sites _ := rfl

theorem Leads.trans (h : R.Leads c c') (h' : R.Leads c' c'') : R.Leads c c'' where
  template := h'.template.trans h.template
  target := h'.target.trans h.target
  trigger := h'.trigger.trans h.trigger
  size := h'.size.trans h.size
  slot hslot := (h'.slot hslot).trans (h.slot hslot)
  kept := Nat.le_trans h.kept h'.kept
  sites hsites := (h'.sites (Nat.le_trans hsites h.kept)).trans (h.sites hsites)

theorem leads_store {slot : SlotId} (hslot : R.assigned slot) (c : Context) (v : Value) :
    R.Leads c (c.store slot v) where
  template := rfl
  target := rfl
  trigger := rfl
  size := List.length_set
  slot {other} hother := by
    have hne : slot ≠ other := by
      rintro rfl
      exact hother hslot
    exact List.getElem?_set_ne hne
  kept := Nat.le_of_eq rfl
  sites _ := rfl

theorem leads_leave {site : SiteId} (hsite : site < R.sites) (c sub : Context) :
    R.Leads c (c.leave site sub) where
  template := rfl
  target := rfl
  trigger := rfl
  size := rfl
  slot _ := rfl
  kept := Context.length_le_keep sub c.subs site
  sites hsites := Context.length_keep (Nat.lt_of_lt_of_le hsite hsites)

variable {σ α β : Type}

variable (R) in
/-- A part of a run with this reach, wherever it ends. -/
def Confines (m : Run σ α) : Prop :=
  ∀ s : RunState σ, R.Leads s.context (m.run.run s).2.context

namespace Confines

theorem of_eq {m : Run σ α} (h : ∀ s : RunState σ, (m.run.run s).2.context = s.context) :
    R.Confines m := by
  intro s
  rw [h s]
  exact .refl _

theorem pure (a : α) : R.Confines (Pure.pure a : Run σ α) :=
  of_eq fun _ => rfl

theorem throw (e : RunError) : R.Confines (MonadExcept.throw e : Run σ α) :=
  of_eq fun _ => rfl

theorem bind {m : Run σ α} {k : α → Run σ β} (hm : R.Confines m) (hk : ∀ a, R.Confines (k a)) :
    R.Confines (m >>= k) := by
  intro s
  have hm := hm s
  rw [Run.run_bind]
  generalize m.run.run s = r at hm ⊢
  obtain ⟨result, after⟩ := r
  cases result with
  | error e => exact hm
  | ok a => exact hm.trans (hk a after)

theorem get_bind {k : RunState σ → Run σ β} (hk : ∀ s, R.Confines (k s)) :
    R.Confines (get >>= k) :=
  fun s => hk s s

theorem store {slot : SlotId} (hslot : R.assigned slot) (v : Value) :
    R.Confines (Run.store slot v : Run σ Unit) :=
  fun s => leads_store hslot s.context v

/-- Whatever is done in the context of a call, the caller gets its own one back. -/
theorem within {site : SiteId} (hsite : site < R.sites) (callee : Template) (body : Run σ Unit) :
    R.Confines (Run.within site callee body) :=
  fun s => leads_leave hsite s.context _

variable {f : Frame}

theorem debug (index : Nat) (value : Option Operand) (compare : Option String) :
    R.Confines (f.debug index value compare : Run σ Unit) := by
  rw [Frame.debug, f.currentScope_bind]
  apply get_bind
  intro s
  apply get_bind
  intro s
  split
  · split
    · exact of_eq fun _ => rfl
    · exact pure _
  · exact pure _

theorem passes {header : Loop} (hentry : R.assigned header.entry) (hnext : R.assigned header.next)
    {body : Run σ Unit} (hbody : R.Confines body) (items : List Value) :
    R.Confines (Frame.passes header body items) := by
  induction items with
  | nil => exact pure _
  | cons v rest ih =>
    exact bind (store hentry v) fun _ => bind (store hnext _) fun _ => bind hbody fun _ => ih

variable [Sink σ]

theorem emit (text : String) : R.Confines (Run.emit text : Run σ Unit) := by
  apply of_eq
  intro s
  rw [Run.run_emit]

theorem emitAll (texts : List String) : R.Confines (Run.emitAll texts : Run σ Unit) := by
  induction texts with
  | nil => exact pure ()
  | cons text rest ih => exact bind (emit text) fun _ => ih

theorem report (e : DataError) : R.Confines (f.report e : Run σ Unit) := by
  unfold Frame.report
  split
  · exact emit _
  · exact pure _

theorem attempt (default : α) (ask : Context → Except DataError α) :
    R.Confines (Run.attempt (σ := σ) f.report default ask) := by
  apply get_bind
  intro s
  split
  · exact pure _
  · exact bind (report _) fun _ => pure _

theorem valueOrNull (o : Operand) : R.Confines (f.valueOrNull o : Run σ Value) := by
  rw [f.valueOrNull_eq]
  exact attempt _ _

theorem evaluate (args : List Argument) :
    R.Confines (f.evaluate args : Run σ (List (Argument × Value))) := by
  induction args with
  | nil => exact pure _
  | cons a rest ih => exact bind (valueOrNull _) fun _ => bind ih fun _ => pure _

section Walk

variable {enter : Enter σ}
  (henter : ∀ u site body, site < R.sites → R.Confines (enter u site body))
include henter

theorem call {c : Call} (hsite : c.site < R.sites) : R.Confines (f.call enter c) := by
  apply get_bind
  intro s
  split
  · exact report _
  · exact bind (evaluate _) fun _ => henter _ _ _ hsite

theorem act {a : Action} (ha : R.Covers (.action a)) (index : Nat) :
    R.Confines (f.act enter index a) := by
  cases a with
  | literal text => exact emit text
  | «variable» source =>
    rw [Frame.act, f.writeVariable_eq]
    exact bind (attempt _ _) emitAll
  | set target value => exact bind (valueOrNull value) (store (ha.assigned rfl))
  | call c => exact call henter (ha.site rfl)
  | exec op arg =>
    rw [Frame.act, f.exec_eq]
    exact bind (attempt _ _) emitAll
  | debug value compare => exact debug index value compare

/-- A walk goes no further than its instructions, of which a jump only leaves some out. -/
theorem walk (index : Nat) {is : List Instr} (his : ∀ i ∈ is, R.Covers i) :
    R.Confines (f.walk enter index is) := by
  match is with
  | [] =>
    rw [Frame.walk_nil]
    exact pure _
  | i :: rest =>
    obtain ⟨hi, hrest⟩ := List.forall_mem_cons.mp his
    have htake (n : Nat) : ∀ i ∈ rest.take n, R.Covers i :=
      fun i hi => hrest i (List.mem_of_mem_take hi)
    have hdrop (n : Nat) : ∀ i ∈ rest.drop n, R.Covers i :=
      fun i hi => hrest i (List.mem_of_mem_drop hi)
    cases i with
    | action a =>
      rw [Frame.walk_action]
      exact bind (act henter hi index) fun _ => walk _ hrest
    | branch first cond next stop =>
      rw [Frame.walk_branch, f.condition_eq]
      apply bind (attempt _ _)
      intro holds
      split
      · exact bind (walk _ (htake _)) fun _ => walk _ (hdrop _)
      · exact walk _ (hdrop _)
    | otherwise =>
      rw [Frame.walk_otherwise]
      exact walk _ hrest
    | endLoop =>
      rw [Frame.walk_endLoop]
      exact walk _ hrest
    | loop header stop =>
      rw [Frame.walk_loop, f.elements_eq]
      apply bind (attempt _ _)
      intro items
      have hbody := walk (index + 1) (htake (stop - 2))
      exact bind (passes (hi.assigned (.inl rfl)) (hi.assigned (.inr rfl)) hbody items)
        fun _ => walk _ (hdrop _)
termination_by is.length
decreasing_by
  all_goals simp only [List.length_cons, List.length_take, List.length_drop]
  all_goals omega

end Walk

theorem runTemplate {w : World} {o : RunOptions} {t : Template} (ht : ∀ i ∈ t.instrs, R.Covers i)
    (depth : Nat) (chain : List String) :
    R.Confines (TemplateEngine.runTemplate w o depth chain t : Run σ Unit) := by
  cases depth with
  | zero => exact walk (fun _ _ _ _ => throw _) 0 ht
  | succ depth => exact walk (fun u _ _ hsite => within hsite u _) 0 ht

end Confines

end Reach

/-- What a run of a program may change. -/
def Program.reach (p : Program) : Reach :=
  ⟨p.Assigns, p.callSites⟩

theorem Template.IsCompiled.covers {t : Template} (ht : t.IsCompiled) :
    ∀ i ∈ t.instrs, t.reach.Covers i := by
  intro i hi
  refine ⟨fun hslot => ⟨i, hi, hslot⟩, fun hcall => ?_⟩
  exact ht.site_lt (hcall ▸ hi)

theorem leads_run {σ : Type} [Sink σ] {t : Template} (ht : t.IsCompiled) (w : World)
    (o : RunOptions) (c : Context) (sink : σ) : t.reach.Leads c (run w o t c sink).context := by
  unfold run Outcome.inContext
  split
  · exact Reach.Confines.runTemplate ht.covers _ _ ⟨c, sink, []⟩
  · exact .refl c

/-- A context has as many places for calls as its template asks for, whatever was done with it. -/
theorem Context.Used.callSites_le {t : Template} {c : Context}
    (h : c.Used Template.IsCompiled t) : t.callSites ≤ c.subs.length := by
  induction h with
  | fresh => exact Nat.le_of_eq List.length_replicate.symm
  | set _ hset ih =>
    obtain ⟨slot, rfl⟩ := Context.exists_eq_store_of_set hset
    exact ih
  | setSlot _ hset ih =>
    rw [Context.eq_store_of_setSlot hset]
    exact ih
  | target _ _ ih | trigger _ _ ih => exact ih
  | reset _ ih => exact Nat.le_trans ih (Nat.le_of_eq (List.length_map _).symm)
  | run o sink _ _ hu ih => exact Nat.le_trans ih (leads_run hu _ o _ sink).kept

/-- Wherever a run ends, its context has the values that it had before, but for the slots that the
template assigns, and target, tracing, template and sizes are the same. In a context of another
template nothing is done at all. -/
theorem run_confined {σ : Type} [Sink σ] {t : Template} (ht : t.IsCompiled) (w : World)
    (o : RunOptions) (c : Context) (sink : σ) :
    let r := run w o t c sink
    ((∀ slot, ¬t.Assigns slot → r.context.slot? slot = c.slot? slot) ∧
      r.context.target = c.target ∧ r.context.trigger = c.trigger ∧
      r.context.template = c.template ∧ r.context.values.length = c.values.length ∧
      (c.Used Template.IsCompiled t → r.context.subs.length = c.subs.length)) ∧
    (c.isFor t = false →
      r = { result := .error (.contextMismatch t.name t.id c.template), context := c, sink,
            events := [] }) := by
  intro r
  have hleads : t.reach.Leads c r.context := leads_run ht w o c sink
  refine ⟨⟨fun _ => hleads.slot, hleads.target, hleads.trigger, hleads.template, hleads.size,
    fun hused => hleads.sites hused.callSites_le⟩, fun hfor => ?_⟩
  simp only [r, run, Outcome.inContext, hfor, Bool.false_eq_true, if_false, Outcome.ofRun]

/-- A run that is refused a call in the first pass of its loop: it has put a value into the slot of
the loop, which is slot 2, and not into that of the parameter `xs`, which is slot 1. -/
theorem run_confined_refused :
    let source := "<:otx:a:p,xs><:for:e:xs><:set:i=e><:call:a:p=i><.for><.otx>"
    ∃ catalog id r a, readTemplates {} "f" source.toList {} = .ok (catalog, id, r) ∧
      r.resolve? "a" = some a ∧
      let c := (Context.fresh a).tried ((Context.fresh a).set "xs" (.list [.int 8]))
      let c := { c with target := .int 3, trigger := some 0 }
      let r := run { catalog } { maxDepth := 0 } a c ({} : TextSink)
      r.result matches .error (.recursionLimit 0 ["a", "a"]) ∧ a.Assigns 2 ∧ ¬a.Assigns 1 ∧
        r.context.slot? 1 = c.slot? 1 ∧ r.context.target = c.target ∧
        r.context.trigger = c.trigger ∧ r.context.template = c.template ∧
        r.context.values.length = c.values.length ∧ r.context.subs.length = c.subs.length := by
  intro source
  have hfound : (readTemplates {} "f" source.toList {}).toOption.any (fun x =>
      (x.2.2.resolve? "a").any fun a =>
        let c := (Context.fresh a).tried ((Context.fresh a).set "xs" (.list [.int 8]))
        let c := { c with target := .int 3, trigger := some 0 }
        (run { catalog := x.1 } { maxDepth := 0 } a c ({} : TextSink)).result matches
          .error (.recursionLimit 0 ["a", "a"]) && decide (a.Assigns 2 ∧ ¬a.Assigns 1)) = true := by
    decide +kernel
  cases hread : readTemplates {} "f" source.toList {} with
  | error e =>
    rw [hread] at hfound
    cases hfound
  | ok x =>
    obtain ⟨catalog, id, r⟩ := x
    rw [hread] at hfound
    obtain ⟨a, ha, hrun⟩ := (Option.any_eq_true _ (r.resolve? "a")).mp hfound
    obtain ⟨hrefused, hslots⟩ := Bool.and_eq_true_iff.mp hrun
    obtain ⟨hassigned, hother⟩ := of_decide_eq_true hslots
    refine ⟨catalog, id, r, a, rfl, ha, ?_⟩
    intro c₁ c r'
    have hw : World.catalog { catalog } |>.Produced := .read .empty hread
    have hknown : World.Knows { catalog } a :=
      .inr ⟨id, r, "a", registry?_of_readTemplates hread, ha⟩
    have hused : c.Used Template.IsCompiled a :=
      .trigger (some 0) (.target (.int 3) (Context.Used.fresh.tried fun _ => .set .fresh))
    obtain ⟨⟨hslot, htarget, htrigger, htemplate, hsize, hsites⟩, -⟩ :=
      run_confined (World.Knows.isCompiled hw hknown) { catalog } { maxDepth := 0 } c
        ({} : TextSink)
    exact ⟨hrefused, hassigned, hother, hslot 1 hother, htarget, htrigger, htemplate, hsize,
      hsites hused⟩

end TemplateEngine

import Mathlib.Data.List.Nodup
import TemplateEngine.Proofs.Nested.Views
import TemplateEngine.Proofs.References.Within

/-! Everything that a compiled program refers to is there. The tables of the compiler only grow, so
what an earlier marker refers to stays in range while later markers are read. -/
namespace TemplateEngine

namespace Action

def operands : Action → List Operand
  | .literal _ => []
  | .variable source => [source]
  | .set _ value => [value]
  | .call c => c.args.map Argument.value
  | .exec _ arg => arg.toList
  | .debug value _ => value.toList

def slots : Action → List SlotId
  | .set target _ => [target]
  | .call c =>
    match c.callee with
    | .held slot => [slot]
    | .known _ | .named _ => []
  | .literal _ | .variable _ | .exec .. | .debug .. => []

def site? : Action → Option SiteId
  | .call c => some c.site
  | .literal _ | .variable _ | .set .. | .exec .. | .debug .. => none

end Action

namespace Instr

def operands : Instr → List Operand
  | .action a => a.operands
  | .branch _ cond _ _ => [cond]
  | .loop header _ => [header.container]
  | .otherwise | .endLoop => []

def slots : Instr → List SlotId
  | .action a => a.slots
  | .loop header _ => [header.entry, header.next]
  | .branch .. | .otherwise | .endLoop => []

def site? : Instr → Option SiteId
  | .action a => a.site?
  | .branch .. | .otherwise | .loop .. | .endLoop => none

end Instr

/-- Each argument goes into the slot that the callee has for its name, if the callee is known when
the caller is compiled. Else the slot is only looked up when the call is made. -/
def Call.Bound (known : Registry) (c : Call) : Prop :=
  match c.callee with
  | .known r => ∃ name t, known.resolve? name = some t ∧ t.ref = r ∧
      ∀ a ∈ c.args, ∃ slot, a.slot = some slot ∧ t.slots.lookup? a.name = some slot
  | .named _ | .held _ => ∀ a ∈ c.args, a.slot = none

/-- All that an instruction refers to is there. -/
structure Instr.Within (known : Registry) (slots nodes : Nat) (i : Instr) : Prop where
  operands : ∀ op ∈ i.operands, op.Within slots nodes
  slots : ∀ s ∈ i.slots, s < slots
  call : ∀ c, i = .action (.call c) → c.Bound known

theorem Instr.Within.mono {known : Registry} {slots slots' nodes nodes' : Nat}
    (hslots : slots ≤ slots') (hnodes : nodes ≤ nodes') {i : Instr}
    (h : i.Within known slots nodes) : i.Within known slots' nodes' where
  operands op hop := (h.operands op hop).mono hslots hnodes
  slots s hs := Nat.lt_of_lt_of_le (h.slots s hs) hslots
  call := h.call

/-- All that a program refers to is there: its nodes, which refer to smaller ones only, its slots,
and the slots of the callees that it was compiled with. Its calls are numbered in order. -/
structure Program.WellReferenced (known : Registry) (p : Program) : Prop where
  instrs : ∀ i ∈ p.instrs, i.Within known p.slots.size p.arena.size
  nodes : p.arena.Grounded p.slots.size
  sites : p.instrs.filterMap Instr.site? = List.range p.callSites

namespace SlotMap

theorem mem_names_iff {m : SlotMap} {name : String} :
    name ∈ m.names ↔ ∃ slot, m.lookup? name = some slot := by
  rw [← Option.isSome_iff_exists, ← Option.ne_none_iff_isSome, Ne, lookup?_eq_none_iff, not_not]

theorem lookup?_eq_some_iff {m : SlotMap} {name : String} {slot : SlotId} :
    m.lookup? name = some slot ↔ m.nameOf? slot = some name := by
  rw [lookup?, List.idxOf?_eq_some_iff, nameOf?, List.getElem?_eq_some_iff]
  constructor
  · intro h
    obtain ⟨hlt, hname, -⟩ := h
    exact ⟨hlt, hname⟩
  · intro h
    obtain ⟨hlt, hname⟩ := h
    refine ⟨hlt, hname, fun j hj heq => ?_⟩
    exact absurd ((List.Nodup.getElem_inj_iff m.nodup).mp (heq.trans hname.symm)) (Nat.ne_of_lt hj)

/-- A name that has a slot keeps it when more names are declared. -/
theorem lookup?_of_prefix {m m' : SlotMap} (h : m.names <+: m'.names) {name : String}
    {slot : SlotId} (hslot : m.lookup? name = some slot) : m'.lookup? name = some slot := by
  obtain ⟨more, hmore⟩ := h
  rw [lookup?_eq_some_iff, nameOf?] at hslot ⊢
  rw [← hmore, List.getElem?_append_left (List.getElem?_eq_some_iff.mp hslot).1, hslot]

theorem names_declare (m : SlotMap) (name : String) :
    (m.declare name).1.names = if name ∈ m.names then m.names else m.names ++ [name] := by
  unfold declare
  split
  · next slot hslot => rw [if_pos (mem_names_iff.mpr ⟨slot, hslot⟩)]
  · next hslot => rw [if_neg (lookup?_eq_none_iff.mp hslot)]

theorem lookup?_declare (m : SlotMap) (name : String) :
    (m.declare name).1.lookup? name = some (m.declare name).2 := by
  unfold declare
  split
  · next slot hslot => exact hslot
  · next hslot =>
    rw [lookup?_eq_some_iff]
    exact List.getElem?_concat_length

theorem declare_prefix (m : SlotMap) (name : String) :
    m.names <+: (m.declare name).1.names := by
  unfold declare
  split
  · exact List.prefix_rfl
  · exact List.prefix_append _ _

theorem declare_spec {m : SlotMap} (name : String) :
    m.size ≤ (m.declare name).1.size ∧ (m.declare name).2 < (m.declare name).1.size :=
  ⟨(m.declare_prefix name).length_le, lt_of_lookup? (m.lookup?_declare name)⟩

end SlotMap

namespace Tables

/-- What reading a marker does to the tables besides numbering calls. -/
structure Extends (t t' : Tables) : Prop where
  slots_le : t.slots.size ≤ t'.slots.size
  nodes_le : t.arena.size ≤ t'.arena.size
  grounded : t.arena.Grounded t.slots.size → t'.arena.Grounded t'.slots.size

theorem Extends.refl (t : Tables) : t.Extends t :=
  ⟨Nat.le_refl _, Nat.le_refl _, id⟩

theorem Extends.trans {a b c : Tables} (h : a.Extends b) (h' : b.Extends c) : a.Extends c :=
  ⟨Nat.le_trans h.slots_le h'.slots_le, Nat.le_trans h.nodes_le h'.nodes_le,
    h'.grounded ∘ h.grounded⟩

/-- The actions of a marker refer to what is there after it; new calls take the next numbers. -/
structure Performs (known : Registry) (t : Tables) (actions : List Action) (t' : Tables) :
    Prop where
  tables : t.Extends t'
  within : ∀ a ∈ actions, (Instr.action a).Within known t'.slots.size t'.arena.size
  sites : List.range t.callSites ++ actions.filterMap Action.site? = List.range t'.callSites

variable {o : CompileOptions} {t t' : Tables}

theorem operand_spec {text : List Char} {op : Operand} {unknown : List String}
    (h : t.operand o text = .ok (op, unknown, t')) :
    t.Extends t' ∧ op.Within t'.slots.size t'.arena.size ∧ t'.callSites = t.callSites := by
  obtain ⟨⟨source, after⟩, htext, h⟩ := bind_eq_ok h
  cases h
  unfold Lowering.ofText at htext
  dsimp only at htext
  split at htext
  · cases htext
  · next ast _ =>
    have hlowers := Lowering.lowers_operandOf ⟨t.slots, o.constants⟩ (Text.trim text) ast
      ⟨t.arena, []⟩ (Nat.le_refl _)
    rw [Except.ok.inj htext] at hlowers
    exact ⟨⟨Nat.le_refl _, hlowers.1.size_le, hlowers.1.grounded⟩, hlowers.2, rfl⟩

theorem headerOperand_spec {text : List Char} {op : Operand} {unknown : List String}
    (h : t.headerOperand o text = .ok (op, unknown, t')) :
    t.Extends t' ∧ op.Within t'.slots.size t'.arena.size ∧ t'.callSites = t.callSites := by
  obtain ⟨⟨source, unknown', t₁⟩, hoperand, h⟩ := bind_eq_ok h
  cases h
  obtain ⟨hext, hop, hsites⟩ := operand_spec hoperand
  refine ⟨hext, ?_, hsites⟩
  split
  · exact hop
  · trivial

theorem declare_spec {name : List Char} {slot : SlotId} (h : t.declare name = .ok (slot, t')) :
    t.Extends t' ∧ slot < t'.slots.size ∧ t'.callSites = t.callSites := by
  unfold declare at h
  dsimp only at h
  split at h
  · cases h
    obtain ⟨hle, hlt⟩ := SlotMap.declare_spec (m := t.slots) (String.ofList (Text.trim name))
    exact ⟨⟨hle, Nat.le_refl _, fun ha => ha.mono hle⟩, hlt, rfl⟩
  · cases h

section Performs

variable {known : Registry} {actions actions' : List Action}

theorem performs_notes (known : Registry) (t : Tables) (unknown : List String) :
    Performs known t (notes unknown) t where
  tables := .refl t
  within a ha := by
    obtain ⟨name, -, rfl⟩ := List.mem_map.mp ha
    exact ⟨nofun, nofun, nofun⟩
  sites := by
    have hnone : (notes unknown).filterMap Action.site? = [] := by
      rw [List.filterMap_eq_nil_iff]
      intro a ha
      obtain ⟨name, -, rfl⟩ := List.mem_map.mp ha
      rfl
    rw [hnone, List.append_nil]

theorem performs_action {a : Action} (hext : t.Extends t') (hsites : t'.callSites = t.callSites)
    (hwithin : (Instr.action a).Within known t'.slots.size t'.arena.size) (hsite : a.site? = none) :
    Performs known t [a] t' where
  tables := hext
  within a' ha' := by
    rw [List.mem_singleton] at ha'
    exact ha' ▸ hwithin
  sites := by
    rw [List.filterMap_cons_none hsite, List.filterMap_nil, List.append_nil, hsites]

theorem Performs.notes_append (unknown : List String) (h : Performs known t actions t') :
    Performs known t (notes unknown ++ actions) t' where
  tables := h.tables
  within a ha := by
    obtain ha | ha := List.mem_append.mp ha
    · have hnote := (performs_notes known t unknown).within a ha
      exact hnote.mono h.tables.slots_le h.tables.nodes_le
    · exact h.within a ha
  sites := by
    rw [List.filterMap_append, ← List.append_assoc, (performs_notes known t unknown).sites, h.sites]

theorem write_performs {path : List Char} (h : t.write o path = .ok (actions, t')) :
    Performs known t actions t' := by
  obtain ⟨⟨source, unknown, t₁⟩, hoperand, h⟩ := bind_eq_ok h
  cases h
  obtain ⟨hext, hop, hsites⟩ := operand_spec hoperand
  split
  · refine performs_action hext hsites ⟨?_, nofun, nofun⟩ rfl
    simpa only [Instr.operands, Action.operands, List.forall_mem_singleton] using hop
  · have hnotes := performs_notes known t unknown
    exact ⟨hext, fun a ha => (hnotes.within a ha).mono hext.slots_le hext.nodes_le,
      hsites ▸ hnotes.sites⟩

theorem set_performs {var value : List Char} (h : t.set o var value = .ok (actions, t')) :
    Performs known t actions t' := by
  obtain ⟨⟨value', unknown, t₁⟩, hoperand, h⟩ := bind_eq_ok h
  obtain ⟨⟨target, t₂⟩, hdeclare, h⟩ := bind_eq_ok h
  cases h
  obtain ⟨hext, hop, hsites⟩ := operand_spec hoperand
  obtain ⟨hext', hslot, hsites'⟩ := declare_spec hdeclare
  refine (performs_action (hext.trans hext') (hsites'.trans hsites) ?_ rfl).notes_append unknown
  have hop' := hop.mono hext'.slots_le hext'.nodes_le
  refine ⟨?_, ?_, nofun⟩
  · simpa only [Instr.operands, Action.operands, List.forall_mem_singleton] using hop'
  · simpa only [Instr.slots, Action.slots, List.forall_mem_singleton] using hslot

theorem debug_performs {value compare : Option (List Char)}
    (h : t.debug o value compare = .ok (actions, t')) : Performs known t actions t' := by
  unfold debug at h
  dsimp only at h
  split at h
  · cases h
    exact performs_action (.refl t) rfl ⟨nofun, nofun, nofun⟩ rfl
  · obtain ⟨⟨value', unknown, t₁⟩, hoperand, h⟩ := bind_eq_ok h
    cases h
    obtain ⟨hext, hop, hsites⟩ := operand_spec hoperand
    refine (performs_action hext hsites ?_ rfl).notes_append unknown
    refine ⟨?_, nofun, nofun⟩
    simpa only [Instr.operands, Action.operands, Option.toList_some, List.forall_mem_singleton]
      using hop

theorem exec_performs {op : List Char} {arg : Option (List Char)}
    (h : t.exec o op arg = .ok (actions, t')) : Performs known t actions t' := by
  unfold exec at h
  dsimp only at h
  split at h
  · next table _ =>
    split at h
    · next op' _ =>
      split at h
      · cases h
      · cases h
      · cases h
        exact performs_action (.refl t) rfl ⟨nofun, nofun, nofun⟩ rfl
      · obtain ⟨⟨arg', unknown, t₁⟩, hoperand, h⟩ := bind_eq_ok h
        cases h
        obtain ⟨hext, hop, hsites⟩ := operand_spec hoperand
        refine (performs_action hext hsites ?_ rfl).notes_append unknown
        refine ⟨?_, nofun, nofun⟩
        simpa only [Instr.operands, Action.operands, Option.toList_some, List.forall_mem_singleton]
          using hop
    · cases h
  · cases h

/-- A known callee is one of the known templates, and it is the one that the arguments are looked up
in. -/
theorem callee_spec {name : String} {k : Callee} {u? : Option Template}
    (h : t.callee o name = .ok (k, u?)) :
    (∃ slot, k = .held slot ∧ slot < t.slots.size ∧ u? = none) ∨
    (∃ u, k = .known u.ref ∧ o.known.resolve? name = some u ∧ u? = some u) ∨
    (k = .named name ∧ u? = none) := by
  unfold callee at h
  split at h
  · next slot hslot =>
    cases h
    exact .inl ⟨slot, rfl, SlotMap.lt_of_lookup? hslot, rfl⟩
  · next u hslot hu =>
    cases h
    exact .inr (.inl ⟨u, rfl, hu, rfl⟩)
  · split at h
    · cases h
      exact .inr (.inr ⟨rfl, rfl⟩)
    · cases h

def SlotFor (u? : Option Template) (a : Argument) : Prop :=
  match u? with
  | none => a.slot = none
  | some u => ∃ slot, a.slot = some slot ∧ u.slots.lookup? a.name = some slot

theorem argumentSlot_spec {u? : Option Template} {name : String} {slot : Option SlotId}
    (h : argumentSlot u? name = .ok slot) (value : Operand) : SlotFor u? ⟨name, slot, value⟩ := by
  unfold argumentSlot at h
  split at h
  · cases h
    rfl
  · split at h
    · next slot' hslot =>
      cases h
      exact ⟨slot', rfl, hslot⟩
    · cases h

theorem argument_spec {u? : Option Template} {text : List Char} {a : Argument}
    {unknown : List String} (h : t.argument o u? text = .ok (a, unknown, t')) :
    t.Extends t' ∧ a.value.Within t'.slots.size t'.arena.size ∧ t'.callSites = t.callSites ∧
      SlotFor u? a := by
  unfold argument at h
  split at h
  · cases h
  · next param value _ =>
    dsimp only at h
    split at h
    · cases h
    · obtain ⟨slot, hslot, h⟩ := bind_eq_ok h
      obtain ⟨⟨value', unknown', t₁⟩, hoperand, h⟩ := bind_eq_ok h
      cases h
      obtain ⟨hext, hop, hsites⟩ := operand_spec hoperand
      exact ⟨hext, hop, hsites, argumentSlot_spec hslot value'⟩

theorem arguments_spec {u? : Option Template} {texts : List (List Char)} {args : List Argument}
    {unknown : List String} (h : t.arguments o u? texts = .ok (args, unknown, t')) :
    t.Extends t' ∧ t'.callSites = t.callSites ∧
      ∀ a ∈ args, a.value.Within t'.slots.size t'.arena.size ∧ SlotFor u? a := by
  induction texts generalizing t args unknown t' with
  | nil =>
    cases h
    exact ⟨.refl t, rfl, nofun⟩
  | cons text rest ih =>
    obtain ⟨⟨a, unknown₁, t₁⟩, hargument, h⟩ := bind_eq_ok h
    obtain ⟨⟨args', unknown₂, t₂⟩, hrest, h⟩ := bind_eq_ok h
    cases h
    obtain ⟨hext, hvalue, hsites, hslot⟩ := argument_spec hargument
    obtain ⟨hext', hsites', hargs⟩ := ih hrest
    refine ⟨hext.trans hext', hsites'.trans hsites, ?_⟩
    rw [List.forall_mem_cons]
    exact ⟨⟨hvalue.mono hext'.slots_le hext'.nodes_le, hslot⟩, hargs⟩

theorem call_performs {name : List Char} {args : Option (List Char)}
    (h : t.call o name args = .ok (actions, t')) : Performs o.known t actions t' := by
  obtain ⟨⟨k, u?⟩, hcallee, h⟩ := bind_eq_ok h
  obtain ⟨⟨args', unknown, t₁⟩, hargs, h⟩ := bind_eq_ok h
  cases h
  obtain ⟨hext, hsites, hargs⟩ := arguments_spec hargs
  refine Performs.notes_append unknown ⟨⟨hext.slots_le, hext.nodes_le, hext.grounded⟩, ?_, ?_⟩
  · intro a ha
    rw [List.mem_singleton] at ha
    subst ha
    have hoperands : ∀ op ∈ args'.map Argument.value,
        op.Within t₁.slots.size t₁.arena.size := by
      intro op hmem
      obtain ⟨a, ha, rfl⟩ := List.mem_map.mp hmem
      exact (hargs a ha).1
    obtain ⟨slot, rfl, hslot, rfl⟩ | ⟨u, rfl, hu, rfl⟩ | ⟨rfl, rfl⟩ := callee_spec hcallee
    · refine ⟨hoperands, ?_, ?_⟩
      · have hslot' := Nat.lt_of_lt_of_le hslot hext.slots_le
        simpa only [Instr.slots, Action.slots, List.forall_mem_singleton] using hslot'
      · rintro c ⟨⟩ a ha
        exact (hargs a ha).2
    · refine ⟨hoperands, nofun, ?_⟩
      rintro c ⟨⟩
      refine ⟨_, u, hu, rfl, ?_⟩
      intro a ha
      exact (hargs a ha).2
    · refine ⟨hoperands, nofun, ?_⟩
      rintro c ⟨⟩ a ha
      exact (hargs a ha).2
  · rw [hsites, List.range_succ]
    rfl

theorem loopHeader_spec {var container : List Char} {header : Loop} {unknown : List String}
    (h : t.loopHeader o var container = .ok (header, unknown, t')) (n : Nat) :
    t.Extends t' ∧ t'.callSites = t.callSites ∧
      (Instr.loop header n).Within known t'.slots.size t'.arena.size := by
  obtain ⟨⟨container', unknown', t₁⟩, hcontainer, h⟩ := bind_eq_ok h
  obtain ⟨⟨entry, t₂⟩, hentry, h⟩ := bind_eq_ok h
  obtain ⟨⟨next, t₃⟩, hnext, h⟩ := bind_eq_ok h
  cases h
  obtain ⟨hext₁, hop, hsites₁⟩ := headerOperand_spec hcontainer
  obtain ⟨hext₂, hentry, hsites₂⟩ := declare_spec hentry
  obtain ⟨hext₃, hnext, hsites₃⟩ := declare_spec hnext
  have hext := hext₂.trans hext₃
  have hop' := hop.mono hext.slots_le hext.nodes_le
  have hentry' := Nat.lt_of_lt_of_le hentry hext₃.slots_le
  refine ⟨hext₁.trans hext, hsites₃.trans (hsites₂.trans hsites₁), ?_, ?_, nofun⟩
  · simpa only [Instr.operands, List.forall_mem_singleton] using hop'
  · rw [Instr.slots, List.forall_mem_cons, List.forall_mem_singleton]
    exact ⟨hentry', hnext⟩

end Performs

theorem declareParams_spec {params : List String} (h : t.declareParams params = .ok t') :
    t.Extends t' ∧ t'.callSites = t.callSites := by
  induction params generalizing t with
  | nil =>
    cases h
    exact ⟨.refl _, rfl⟩
  | cons param rest ih =>
    unfold declareParams at h
    dsimp only at h
    split at h
    · cases h
    · split at h
      · cases h
      · obtain ⟨hext, hsites⟩ := ih h
        obtain ⟨hle, -⟩ := SlotMap.declare_spec (m := t.slots)
          (String.ofList (Text.trim param.toList))
        have hdeclare : t.Extends { t with slots := (t.slots.declare _).1 } :=
          ⟨hle, Nat.le_refl _, fun ha => ha.mono hle⟩
        exact ⟨hdeclare.trans hext, hsites⟩

end Tables

/-- All that the instructions refer to is in the tables, and the calls among them are numbered in
order. -/
structure Tables.Supports (known : Registry) (t : Tables) (is : List Instr) : Prop where
  within : ∀ i ∈ is, i.Within known t.slots.size t.arena.size
  nodes : t.arena.Grounded t.slots.size
  sites : is.filterMap Instr.site? = List.range t.callSites

namespace Tables.Supports

variable {known : Registry} {t t' : Tables} {is : List Instr}

theorem performs {actions : List Action} (h : t.Supports known is)
    (hactions : t.Performs known actions t') : t'.Supports known (is ++ actions.map .action) where
  within i hi := by
    obtain hi | hi := List.mem_append.mp hi
    · exact (h.within i hi).mono hactions.tables.slots_le hactions.tables.nodes_le
    · obtain ⟨a, ha, rfl⟩ := List.mem_map.mp hi
      exact hactions.within a ha
  nodes := hactions.tables.grounded h.nodes
  sites := by
    rw [List.filterMap_append, h.sites, List.filterMap_map]
    exact hactions.sites

/-- The tables grow, and an instruction comes that is no call. -/
theorem emit {i : Instr} (h : t.Supports known is) (hext : t.Extends t')
    (hsites : t'.callSites = t.callSites) (hi : i.Within known t'.slots.size t'.arena.size)
    (hsite : i.site? = none) : t'.Supports known (is ++ [i]) where
  within j hj := by
    obtain hj | hj := List.mem_append.mp hj
    · exact (h.within j hj).mono hext.slots_le hext.nodes_le
    · rw [List.mem_singleton] at hj
      exact hj ▸ hi
  nodes := hext.grounded h.nodes
  sites := by
    rw [List.filterMap_append, List.filterMap_cons_none hsite, List.filterMap_nil,
      List.append_nil, hsites]
    exact h.sites

end Tables.Supports

/-- Changes nothing of an instruction but its jumps. -/
def Instr.OnlyJumps (f : Instr → Instr) : Prop :=
  ∀ i, (f i).operands = i.operands ∧ (f i).slots = i.slots ∧ (f i).site? = i.site? ∧
    ∀ a, f i = .action a → i = .action a

theorem Instr.onlyJumps_setNext (n : Nat) : OnlyJumps (setNext n) := by
  intro i
  cases i <;> exact ⟨rfl, rfl, rfl, fun a ha => by cases ha <;> rfl⟩

theorem Instr.onlyJumps_setStop (n : Nat) : OnlyJumps (setStop n) := by
  intro i
  cases i <;> exact ⟨rfl, rfl, rfl, fun a ha => by cases ha <;> rfl⟩

/-- Filling in a header changes nothing that is referred to. -/
theorem Tables.Supports.modify {known : Registry} {t : Tables} {is : List Instr}
    (h : t.Supports known is) {f : Instr → Instr} (hf : Instr.OnlyJumps f) (place : Nat) :
    t.Supports known (is.modify place f) where
  within i hi := by
    obtain ⟨k, hk⟩ := List.mem_iff_getElem?.mp hi
    rw [List.getElem?_modify] at hk
    obtain ⟨j, hj, rfl⟩ := Option.map_eq_some_iff.mp hk
    have hwithin := h.within j (List.mem_of_getElem? hj)
    split
    · obtain ⟨hoperands, hslots, -, haction⟩ := hf j
      exact ⟨hoperands ▸ hwithin.operands, hslots ▸ hwithin.slots,
        fun c hc => hwithin.call c (haction _ hc)⟩
    · exact hwithin
  nodes := h.nodes
  sites := by
    rw [filterMap_modify (fun i => (hf i).2.2.1), h.sites]

namespace Emitter

/-- The instructions so far refer to what is in the tables so far. -/
def WellReferenced (known : Registry) (e : Emitter) : Prop :=
  e.tables.Supports known e.instrs.toList

variable {known : Registry} {o : CompileOptions} {e e' : Emitter}

theorem WellReferenced.flush (h : e.WellReferenced known) : e.flush.WellReferenced known := by
  unfold Emitter.flush
  split
  · exact h
  · have hliteral := h.emit (i := .action (.literal (String.ofList e.text))) (.refl _) rfl
      ⟨nofun, nofun, nofun⟩ rfl
    simpa only [WellReferenced, Emitter.emit, Array.toList_push] using hliteral

theorem WellReferenced.emitAll {actions : List Action} {tables : Tables}
    (h : e.WellReferenced known) (hactions : e.tables.Performs known actions tables) :
    tables.Supports known (e.emitAll actions).instrs.toList := by
  rw [emitAll_eq, Array.toList_appendList]
  exact h.performs hactions

theorem WellReferenced.patch {f : Instr → Instr} (hf : Instr.OnlyJumps f)
    (h : e.WellReferenced known) (place : Nat) : (e.patch place f).WellReferenced known := by
  rw [WellReferenced, Emitter.patch, Array.toList_modify]
  exact h.modify hf place

theorem WellReferenced.foldl_patch {f : Nat → Instr → Instr} (hf : ∀ link, Instr.OnlyJumps (f link))
    (links : List Nat) (h : e.WellReferenced known) :
    (links.foldl (fun e link => e.patch link (f link)) e).WellReferenced known := by
  induction links generalizing e with
  | nil => exact h
  | cons link links ih => exact ih (h.patch (hf link) link)

theorem perform_wellReferenced {marker : Except Fault (List Action × Tables)}
    (hmarker : ∀ {actions tables}, marker = .ok (actions, tables) →
      e.tables.Performs known actions tables)
    (h : e.WellReferenced known) (he : e.perform marker = .ok e') : e'.WellReferenced known := by
  obtain ⟨⟨actions, tables⟩, hmarker', he⟩ := bind_eq_ok he
  cases he
  exact h.flush.emitAll (by rw [flush_tables]; exact hmarker hmarker')

theorem closeLink_wellReferenced {next : BranchKind} (h : e.WellReferenced known)
    (he : e.closeLink next = .ok e') : e'.WellReferenced known := by
  unfold closeLink at he
  dsimp only at he
  split at he
  · cases he
  · cases he
    exact h.flush.patch (Instr.onlyJumps_setNext _) _
  · cases he

theorem WellReferenced.emitHeader {unknown : List String} {tables : Tables} {i : Instr}
    (h : e.WellReferenced known) (hext : e.tables.Extends tables)
    (hsites : tables.callSites = e.tables.callSites)
    (hi : i.Within known tables.slots.size tables.arena.size) (hsite : i.site? = none) :
    tables.Supports known ((e.emitAll (notes unknown)).emit i).instrs.toList := by
  have hnotes := h.emitAll (Tables.performs_notes known e.tables unknown)
  rw [emit, Array.toList_push]
  exact hnotes.emit hext hsites hi hsite

theorem within_branch {slots nodes : Nat} {first : Bool} {cond : Operand} {next stop : Nat}
    (h : cond.Within slots nodes) :
    (Instr.branch first cond next stop).Within known slots nodes := by
  refine ⟨?_, nofun, nofun⟩
  simpa only [Instr.operands, List.forall_mem_singleton] using h

theorem openIf_wellReferenced {span : Text.Span} {cond : List Char} (h : e.WellReferenced known)
    (he : e.openIf o span cond = .ok e') : e'.WellReferenced known := by
  obtain ⟨⟨cond', unknown, tables⟩, hcond, he⟩ := bind_eq_ok he
  cases he
  obtain ⟨hext, hop, hsites⟩ := Tables.headerOperand_spec hcond
  rw [← flush_tables] at hext hsites
  exact h.flush.emitHeader hext hsites (within_branch hop) rfl

theorem elsif_wellReferenced {cond : List Char} (h : e.WellReferenced known)
    (he : e.elsif o cond = .ok e') : e'.WellReferenced known := by
  obtain ⟨e₁, hclose, he⟩ := bind_eq_ok he
  obtain ⟨⟨cond', unknown, tables⟩, hcond, he⟩ := bind_eq_ok he
  cases he
  obtain ⟨hext, hop, hsites⟩ := Tables.headerOperand_spec hcond
  exact (closeLink_wellReferenced h hclose).emitHeader hext hsites (within_branch hop) rfl

theorem otherwise_wellReferenced (h : e.WellReferenced known) (he : e.otherwise = .ok e') :
    e'.WellReferenced known := by
  obtain ⟨e₁, hclose, he⟩ := bind_eq_ok he
  cases he
  have helse := Tables.Supports.emit (closeLink_wellReferenced h hclose) (i := .otherwise)
    (.refl _) rfl ⟨nofun, nofun, nofun⟩ rfl
  simpa only [WellReferenced, emit, Array.toList_push] using helse

theorem closeIf_wellReferenced (h : e.WellReferenced known) (he : e.closeIf = .ok e') :
    e'.WellReferenced known := by
  unfold closeIf at he
  dsimp only at he
  split at he
  · next links hasElse blocks _ =>
    cases he
    refine WellReferenced.foldl_patch (f := fun link => Instr.setStop (e.flush.instrs.size - link))
      (fun _ => Instr.onlyJumps_setStop _) links ?_
    cases hlast : (if hasElse then none else links.head?) with
    | none => exact h.flush
    | some last => exact h.flush.patch (Instr.onlyJumps_setNext _) last
  · cases he
  · cases he

theorem openFor_wellReferenced {span : Text.Span} {var container : List Char}
    (h : e.WellReferenced known) (he : e.openFor o span var container = .ok e') :
    e'.WellReferenced known := by
  obtain ⟨⟨header, unknown, tables⟩, hheader, he⟩ := bind_eq_ok he
  cases he
  obtain ⟨hext, hsites, hwithin⟩ := Tables.loopHeader_spec hheader 0
  rw [← flush_tables] at hext hsites
  exact h.flush.emitHeader hext hsites hwithin rfl

theorem closeFor_wellReferenced (h : e.WellReferenced known) (he : e.closeFor = .ok e') :
    e'.WellReferenced known := by
  unfold closeFor at he
  dsimp only at he
  split at he
  · cases he
    have hclose : (e.flush.emit .endLoop).WellReferenced known := by
      have hclose := Tables.Supports.emit h.flush (i := .endLoop) (.refl _) rfl
        ⟨nofun, nofun, nofun⟩ rfl
      simpa only [WellReferenced, emit, Array.toList_push] using hclose
    exact hclose.patch (Instr.onlyJumps_setStop _) _
  · cases he
  · cases he

/-- Whatever marker comes next, its own references and those before it are in the tables. -/
theorem directive_wellReferenced {span : Text.Span} {d : Directive} (h : e.WellReferenced o.known)
    (he : e.directive o span d = .ok e') : e'.WellReferenced o.known := by
  match d with
  | .variable path => exact perform_wellReferenced Tables.write_performs h he
  | .openIf cond => exact openIf_wellReferenced h he
  | .elsif cond => exact elsif_wellReferenced h he
  | .otherwise => exact otherwise_wellReferenced h he
  | .closeIf => exact closeIf_wellReferenced h he
  | .openFor var container => exact openFor_wellReferenced h he
  | .closeFor => exact closeFor_wellReferenced h he
  | .set var value => exact perform_wellReferenced Tables.set_performs h he
  | .call name args => exact perform_wellReferenced Tables.call_performs h he
  | .exec op arg => exact perform_wellReferenced Tables.exec_performs h he
  | .debug value compare => exact perform_wellReferenced Tables.debug_performs h he

theorem addPieces_wellReferenced {pieces : List Piece} (h : e.WellReferenced o.known)
    (he : addPieces o e pieces = .ok e') : e'.WellReferenced o.known := by
  induction pieces generalizing e with
  | nil =>
    cases he
    exact h
  | cons p rest ih =>
    cases p with
    | text cs => exact ih (e := e.addText cs) h he
    | fault f span => cases he
    | directive d span =>
      rw [addPieces] at he
      split at he
      · cases he
      · next hd => exact ih (directive_wellReferenced h hd) he

theorem ofSource_wellReferenced {source : List Char} (he : ofSource o source = .ok e) :
    e.WellReferenced o.known := by
  unfold ofSource at he
  split at he
  · cases he
  · next tables hparams =>
    obtain ⟨e₁, hpieces, he⟩ := bind_eq_ok he
    have hstart : Emitter.WellReferenced o.known { tables } := by
      obtain ⟨hext, hsites⟩ := Tables.declareParams_spec hparams
      exact ⟨nofun, hext.grounded nofun, by rw [hsites]; rfl⟩
    have hrefs := addPieces_wellReferenced hstart hpieces
    unfold finish at he
    split at he
    · cases he
      exact hrefs.flush
    · cases he

end Emitter

theorem wellReferenced_of_compile {name : String} {source : List Char} {o : CompileOptions}
    {p : Program} (h : compile name source o = .ok p) : p.WellReferenced o.known := by
  unfold compile at h
  split at h
  · cases h
  · next e he =>
    cases h
    have hrefs := Emitter.ofSource_wellReferenced he
    exact ⟨hrefs.within, hrefs.nodes, hrefs.sites⟩

end TemplateEngine

import TemplateEngine.Proofs.References.Program

/-! What holds of all actions of a compiled program, since it holds of those that each marker asks
for. -/
namespace TemplateEngine

/-- `I` holds of the tables before and after each marker, and `P` of the actions that it asks
for. -/
structure CompileOptions.Keeps (o : CompileOptions) (I : Tables → Prop) (P : Action → Prop) :
    Prop where
  literal (text : String) : P (.literal text)
  headerOperand {t t' : Tables} {text : List Char} {cond : Operand} {unknown : List String} :
    I t → t.headerOperand o text = .ok (cond, unknown, t') → I t'
  loopHeader {t t' : Tables} {var container : List Char} {header : Loop} {unknown : List String} :
    I t → t.loopHeader o var container = .ok (header, unknown, t') → I t'
  write {t t' : Tables} {path : List Char} {actions : List Action} :
    I t → t.write o path = .ok (actions, t') → I t' ∧ ∀ a ∈ actions, P a
  set {t t' : Tables} {var value : List Char} {actions : List Action} :
    I t → t.set o var value = .ok (actions, t') → I t' ∧ ∀ a ∈ actions, P a
  call {t t' : Tables} {name : List Char} {args : Option (List Char)} {actions : List Action} :
    I t → t.call o name args = .ok (actions, t') → I t' ∧ ∀ a ∈ actions, P a
  exec {t t' : Tables} {op : List Char} {arg : Option (List Char)} {actions : List Action} :
    I t → t.exec o op arg = .ok (actions, t') → I t' ∧ ∀ a ∈ actions, P a
  debug {t t' : Tables} {value compare : Option (List Char)} {actions : List Action} :
    I t → t.debug o value compare = .ok (actions, t') → I t' ∧ ∀ a ∈ actions, P a

namespace Emitter

/-- `I` holds of the tables so far and `P` of the actions so far. -/
structure Holds (I : Tables → Prop) (P : Action → Prop) (e : Emitter) : Prop where
  tables : I e.tables
  actions : ∀ a, .action a ∈ e.instrs.toList → P a

variable {I : Tables → Prop} {P : Action → Prop} {o : CompileOptions} {e e' : Emitter}

theorem Holds.emit (h : e.Holds I P) {i : Instr} (hi : ∀ a, i = .action a → P a) :
    (e.emit i).Holds I P where
  tables := h.tables
  actions a ha := by
    rw [Emitter.emit, Array.toList_push, List.mem_append, List.mem_singleton] at ha
    exact ha.elim (h.actions a) fun heq => hi a heq.symm

theorem Holds.emitAll (h : e.Holds I P) {actions : List Action} (hactions : ∀ a ∈ actions, P a) :
    (e.emitAll actions).Holds I P := by
  induction actions generalizing e with
  | nil => exact h
  | cons a actions ih =>
    obtain ⟨ha, hactions⟩ := List.forall_mem_cons.mp hactions
    exact ih (h.emit (by rintro _ ⟨⟩; exact ha)) hactions

theorem Holds.patch (h : e.Holds I P) {f : Instr → Instr} (hf : Instr.OnlyJumps f) (place : Nat) :
    (e.patch place f).Holds I P where
  tables := h.tables
  actions a ha := by
    rw [Emitter.patch, Array.toList_modify] at ha
    obtain ⟨k, hk⟩ := List.mem_iff_getElem?.mp ha
    rw [List.getElem?_modify] at hk
    obtain ⟨i, hi, heq⟩ := Option.map_eq_some_iff.mp hk
    have hmem := List.mem_of_getElem? hi
    split at heq
    · exact h.actions a ((hf i).2.2.2 a heq ▸ hmem)
    · exact h.actions a (heq ▸ hmem)

theorem Holds.foldl_patch {f : Nat → Instr → Instr} (hf : ∀ link, Instr.OnlyJumps (f link))
    (links : List Nat) (h : e.Holds I P) :
    (links.foldl (fun e link => e.patch link (f link)) e).Holds I P := by
  induction links generalizing e with
  | nil => exact h
  | cons link links ih => exact ih (h.patch (hf link) link)

section Keeps

variable (K : o.Keeps I P)
include K

theorem Holds.flush (h : e.Holds I P) : e.flush.Holds I P := by
  unfold Emitter.flush
  split
  · exact h
  · have hemit : (e.emit (.action (.literal (String.ofList e.text)))).Holds I P :=
      h.emit (by rintro _ ⟨⟩; exact K.literal _)
    exact ⟨hemit.tables, hemit.actions⟩

theorem Holds.notes (h : e.Holds I P) (unknown : List String) :
    (e.emitAll (notes unknown)).Holds I P := by
  refine h.emitAll fun a ha => ?_
  obtain ⟨name, -, rfl⟩ := List.mem_map.mp ha
  exact K.literal _

theorem Holds.perform (h : e.Holds I P) {marker : Except Fault (List Action × Tables)}
    (hmarker : ∀ {actions tables}, marker = .ok (actions, tables) → I tables ∧ ∀ a ∈ actions, P a)
    (he : e.perform marker = .ok e') : e'.Holds I P := by
  obtain ⟨⟨actions, tables⟩, hmarker', he⟩ := bind_eq_ok he
  cases he
  obtain ⟨htables, hactions⟩ := hmarker hmarker'
  exact ⟨htables, ((h.flush K).emitAll hactions).actions⟩

theorem Holds.header (h : e.Holds I P) (unknown : List String) {i : Instr} {tables : Tables}
    {blocks : List OpenBlock} (htables : I tables) (hi : ∀ a, i ≠ .action a) :
    Holds I P { (e.emitAll (TemplateEngine.notes unknown)).emit i with tables, blocks } :=
  ⟨htables, ((h.notes K unknown).emit fun a ha => absurd ha (hi a)).actions⟩

theorem Holds.closeLink (h : e.Holds I P) {next : BranchKind} (he : e.closeLink next = .ok e') :
    e'.Holds I P := by
  unfold Emitter.closeLink at he
  dsimp only at he
  split at he
  · cases he
  · cases he
    exact (h.flush K).patch (Instr.onlyJumps_setNext _) _
  · cases he

theorem Holds.closeIf (h : e.Holds I P) (he : e.closeIf = .ok e') : e'.Holds I P := by
  unfold Emitter.closeIf at he
  dsimp only at he
  split at he
  · next links hasElse blocks _ =>
    cases he
    have hlast : ((if hasElse then none else links.head?).elim e.flush fun last =>
        e.flush.patch last (Instr.setNext (e.flush.instrs.size - last))).Holds I P := by
      cases (if hasElse then none else links.head?) with
      | none => exact h.flush K
      | some last => exact (h.flush K).patch (Instr.onlyJumps_setNext _) last
    have hlinks := hlast.foldl_patch
      (f := fun link => Instr.setStop (e.flush.instrs.size - link))
      (fun _ => Instr.onlyJumps_setStop _) links
    exact ⟨hlinks.tables, hlinks.actions⟩
  · cases he
  · cases he

theorem Holds.closeFor (h : e.Holds I P) (he : e.closeFor = .ok e') : e'.Holds I P := by
  unfold Emitter.closeFor at he
  dsimp only at he
  split at he
  · next header blocks _ =>
    cases he
    have hend : (e.flush.emit .endLoop).Holds I P := (h.flush K).emit nofun
    have hpatch := hend.patch
      (Instr.onlyJumps_setStop ((e.flush.emit .endLoop).instrs.size - header)) header
    exact ⟨hpatch.tables, hpatch.actions⟩
  · cases he
  · cases he

theorem Holds.directive (h : e.Holds I P) {span : Text.Span} {d : Directive}
    (he : e.directive o span d = .ok e') : e'.Holds I P := by
  have htables : I e.tables := h.tables
  match d with
  | .variable path => exact h.perform K (K.write htables) he
  | .openIf cond =>
    obtain ⟨⟨cond', unknown, tables⟩, hcond, he⟩ := bind_eq_ok he
    cases he
    exact (h.flush K).header K unknown (K.headerOperand htables hcond) nofun
  | .elsif cond =>
    obtain ⟨e₁, hclose, he⟩ := bind_eq_ok he
    obtain ⟨⟨cond', unknown, tables⟩, hcond, he⟩ := bind_eq_ok he
    cases he
    have hlink := h.closeLink K hclose
    exact hlink.header K unknown (K.headerOperand hlink.tables hcond) nofun
  | .otherwise =>
    obtain ⟨e₁, hclose, he⟩ := bind_eq_ok he
    cases he
    have helse : (e₁.emit .otherwise).Holds I P := (h.closeLink K hclose).emit nofun
    exact ⟨helse.tables, helse.actions⟩
  | .closeIf => exact h.closeIf K he
  | .openFor var container =>
    obtain ⟨⟨header, unknown, tables⟩, hheader, he⟩ := bind_eq_ok he
    cases he
    exact (h.flush K).header K unknown (K.loopHeader htables hheader) nofun
  | .closeFor => exact h.closeFor K he
  | .set var value => exact h.perform K (K.set htables) he
  | .call name args => exact h.perform K (K.call htables) he
  | .exec op arg => exact h.perform K (K.exec htables) he
  | .debug value compare => exact h.perform K (K.debug htables) he

theorem Holds.addPieces {pieces : List Piece} (h : e.Holds I P)
    (he : addPieces o e pieces = .ok e') : e'.Holds I P := by
  induction pieces generalizing e with
  | nil =>
    cases he
    exact h
  | cons p rest ih =>
    cases p with
    | text cs => exact ih (e := e.addText cs) ⟨h.tables, h.actions⟩ he
    | fault f span => cases he
    | directive d span =>
      rw [Emitter.addPieces] at he
      split at he
      · cases he
      · next hd => exact ih (h.directive K hd) he

end Keeps

end Emitter

/-- A source is compiled if it can be laid out with all its blocks closed. -/
theorem compile_eq_ok_iff_layout {name : String} {source : List Char} {o : CompileOptions}
    {p : Program} : compile name source o = .ok p ↔
      ∃ tables e, Tables.declareParams {} o.params = .ok tables ∧
        Emitter.addPieces o { tables } (Piece.ofSource source) = .ok e ∧ e.blocks = [] ∧
        p = e.flush.program name o := by
  rw [compile, Emitter.ofSource]
  cases htables : Tables.declareParams {} o.params with
  | error f => simp
  | ok tables =>
    dsimp only
    cases hpieces : Emitter.addPieces o { tables } (Piece.ofSource source) with
    | error f => simp [bind, Except.bind, hpieces]
    | ok e =>
      cases hblocks : e.blocks <;>
        simp [bind, Except.bind, Emitter.finish, hpieces, hblocks, eq_comm]

/-- A program is what was laid out for the pieces of its source, with the text that waits at the
end. -/
theorem layout_of_compile {name : String} {source : List Char} {o : CompileOptions} {p : Program}
    (h : compile name source o = .ok p) :
    ∃ tables e, Tables.declareParams {} o.params = .ok tables ∧
      Emitter.addPieces o { tables } (Piece.ofSource source) = .ok e ∧
      p = e.flush.program name o := by
  obtain ⟨tables, e, htables, hpieces, -, hp⟩ := compile_eq_ok_iff_layout.mp h
  exact ⟨tables, e, htables, hpieces, hp⟩

/-- What holds of the actions that the markers ask for holds of those of the program. -/
theorem holds_of_compile {o : CompileOptions} {I : Tables → Prop} {P : Action → Prop}
    (K : o.Keeps I P) (hparams : ∀ t, Tables.declareParams {} o.params = .ok t → I t)
    {name : String} {source : List Char} {p : Program} (h : compile name source o = .ok p) :
    I ⟨p.slots, p.arena, p.callSites⟩ ∧ ∀ a, .action a ∈ p.instrs → P a := by
  obtain ⟨tables, e, htables, hpieces, rfl⟩ := layout_of_compile h
  have hstart : Emitter.Holds I P { tables } := ⟨hparams tables htables, nofun⟩
  have hholds := (hstart.addPieces K hpieces).flush K
  exact ⟨hholds.tables, hholds.actions⟩

/-! What a program declares and whom it calls. -/

/-- A call by name is one of a name that can be called so. -/
def Action.CallsAmong (names : List String) (a : Action) : Prop :=
  ∀ c name, a = .call c → c.callee = .named name → name ∈ names

namespace Tables

variable {o : CompileOptions} {t t' : Tables} {actions : List Action}

theorem slots_operand {text : List Char} {op : Operand} {unknown : List String}
    (h : t.operand o text = .ok (op, unknown, t')) : t'.slots = t.slots := by
  obtain ⟨⟨source, after⟩, -, h⟩ := bind_eq_ok h
  cases h
  rfl

theorem slots_headerOperand {text : List Char} {op : Operand} {unknown : List String}
    (h : t.headerOperand o text = .ok (op, unknown, t')) : t'.slots = t.slots := by
  obtain ⟨⟨source, unknown', t₁⟩, hoperand, h⟩ := bind_eq_ok h
  cases h
  exact slots_operand hoperand

theorem slots_declare {name : List Char} {slot : SlotId} (h : t.declare name = .ok (slot, t')) :
    t.slots.names <+: t'.slots.names := by
  unfold declare at h
  dsimp only at h
  split at h
  · cases h
    exact t.slots.declare_prefix _
  · cases h

theorem slots_arguments {known : Option Template} {texts : List (List Char)} {args : List Argument}
    {unknown : List String} (h : t.arguments o known texts = .ok (args, unknown, t')) :
    t'.slots = t.slots := by
  induction texts generalizing t args unknown with
  | nil =>
    cases h
    rfl
  | cons text rest ih =>
    obtain ⟨⟨a, unknown₁, t₁⟩, ha, h⟩ := bind_eq_ok h
    obtain ⟨⟨args₁, more, t₂⟩, hargs, h⟩ := bind_eq_ok h
    cases h
    rw [ih hargs]
    unfold argument at ha
    split at ha
    · cases ha
    · dsimp only at ha
      split at ha
      · cases ha
      · obtain ⟨slot, -, ha⟩ := bind_eq_ok ha
        obtain ⟨⟨value, unknown', t₂⟩, hoperand, ha⟩ := bind_eq_ok ha
        cases ha
        exact slots_operand hoperand

theorem callsAmong_notes (names unknown : List String) :
    ∀ a ∈ notes unknown, a.CallsAmong names := by
  rintro _ ha c name rfl
  obtain ⟨_, -, heq⟩ := List.mem_map.mp ha
  cases heq

/-- Notes and one action. -/
theorem callsAmong_append {names : List String} (unknown : List String) {a : Action}
    (ha : a.CallsAmong names) : ∀ a' ∈ notes unknown ++ [a], a'.CallsAmong names := by
  intro a' ha'
  obtain ha' | ha' := List.mem_append.mp ha'
  · exact callsAmong_notes names unknown a' ha'
  · rwa [List.mem_singleton.mp ha']

end Tables

/-- Markers only add to the slots, and what they call by name can be called so. -/
theorem CompileOptions.keeps_slots (o : CompileOptions) (declared : List String) :
    o.Keeps (fun t => declared <+: t.slots.names) (Action.CallsAmong o.forward) where
  literal text := nofun
  headerOperand ht h := Tables.slots_headerOperand h ▸ ht
  loopHeader ht h := by
    obtain ⟨⟨container, unknown, t₁⟩, hcontainer, h⟩ := bind_eq_ok h
    obtain ⟨⟨entry, t₂⟩, hentry, h⟩ := bind_eq_ok h
    obtain ⟨⟨next, t₃⟩, hnext, h⟩ := bind_eq_ok h
    cases h
    rw [← Tables.slots_headerOperand hcontainer] at ht
    exact (ht.trans (Tables.slots_declare hentry)).trans (Tables.slots_declare hnext)
  write ht h := by
    obtain ⟨⟨source, unknown, t₁⟩, hoperand, h⟩ := bind_eq_ok h
    cases h
    refine ⟨Tables.slots_operand hoperand ▸ ht, ?_⟩
    split
    · rw [List.forall_mem_singleton]
      nofun
    · exact Tables.callsAmong_notes _ _
  set ht h := by
    obtain ⟨⟨value, unknown, t₁⟩, hoperand, h⟩ := bind_eq_ok h
    obtain ⟨⟨target, t₂⟩, hdeclare, h⟩ := bind_eq_ok h
    cases h
    rw [← Tables.slots_operand hoperand] at ht
    exact ⟨ht.trans (Tables.slots_declare hdeclare), Tables.callsAmong_append _ nofun⟩
  call {t t' name args actions} ht h := by
    obtain ⟨⟨callee, known⟩, hcallee, h⟩ := bind_eq_ok h
    obtain ⟨⟨args', unknown, t₁⟩, hargs, h⟩ := bind_eq_ok h
    cases h
    refine ⟨Tables.slots_arguments hargs ▸ ht, Tables.callsAmong_append _ ?_⟩
    rintro _ target ⟨⟩ rfl
    unfold Tables.callee at hcallee
    split at hcallee
    · cases hcallee
    · cases hcallee
    · split at hcallee
      · next hforward =>
        cases hcallee
        exact List.contains_iff_mem.mp hforward
      · cases hcallee
  exec ht h := by
    unfold Tables.exec at h
    dsimp only at h
    split at h
    · split at h
      · split at h
        · cases h
        · cases h
        · cases h
          exact ⟨ht, by rw [List.forall_mem_singleton]; nofun⟩
        · obtain ⟨⟨arg, unknown, t₁⟩, hoperand, h⟩ := bind_eq_ok h
          cases h
          exact ⟨Tables.slots_operand hoperand ▸ ht, Tables.callsAmong_append _ nofun⟩
      · cases h
    · cases h
  debug ht h := by
    unfold Tables.debug at h
    dsimp only at h
    split at h
    · cases h
      exact ⟨ht, by rw [List.forall_mem_singleton]; nofun⟩
    · obtain ⟨⟨value, unknown, t₁⟩, hoperand, h⟩ := bind_eq_ok h
      cases h
      exact ⟨Tables.slots_operand hoperand ▸ ht, Tables.callsAmong_append _ nofun⟩

/-- Parameters are declared one after another, without the blanks around them. -/
theorem names_declareParams {params : List String} {t t' : Tables}
    (h : t.declareParams params = .ok t') :
    t'.slots.names = t.slots.names ++ params.map fun p => String.ofList (Text.trim p.toList) := by
  induction params generalizing t with
  | nil =>
    cases h
    rw [List.map_nil, List.append_nil]
  | cons param rest ih =>
    unfold Tables.declareParams at h
    dsimp only at h
    split at h
    · cases h
    · split at h
      · cases h
      · next hfresh =>
        have hname : String.ofList (Text.trim param.toList) ∉ t.slots.names :=
          fun hmem => hfresh (Option.isSome_iff_exists.mpr (SlotMap.mem_names_iff.mp hmem))
        rw [ih h, SlotMap.names_declare, if_neg hname]
        simp

theorem paramCount_of_compile {name : String} {source : List Char} {o : CompileOptions}
    {p : Program} (h : compile name source o = .ok p) : p.paramCount = o.params.length := by
  unfold compile at h
  split at h
  · cases h
  · cases h
    rfl

/-- The parameters of a program have its first slots. -/
theorem params_of_compile {name : String} {source : List Char} {o : CompileOptions} {p : Program}
    (h : compile name source o = .ok p) :
    p.params = o.params.map fun p => String.ofList (Text.trim p.toList) := by
  have hdeclared := (holds_of_compile (o.keeps_slots
    (o.params.map fun p => String.ofList (Text.trim p.toList))) (fun t ht => ?_) h).1
  · obtain ⟨more, hmore⟩ := hdeclared
    rw [Program.params, paramCount_of_compile h, ← hmore,
      List.take_append_of_le_length (by simp), List.take_of_length_le (by simp)]
  · rw [names_declareParams ht]
    exact List.prefix_rfl

/-- What a program calls by name can be called so. -/
theorem named_of_compile {name : String} {source : List Char} {o : CompileOptions} {p : Program}
    (h : compile name source o = .ok p) {c : Call} (hc : .action (.call c) ∈ p.instrs)
    {target : String} (htarget : c.callee = .named target) : target ∈ o.forward :=
  (holds_of_compile (o.keeps_slots []) (fun _ _ => List.nil_prefix) h).2 _ hc c target rfl htarget

end TemplateEngine

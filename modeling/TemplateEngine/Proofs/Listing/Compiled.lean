import TemplateEngine.Proofs.Listing.Lines
import TemplateEngine.Proofs.Listing.Words
import TemplateEngine.Proofs.References.Declared

/-! Compiled programs have faithful listings. What a marker lays down has names in the places of
names, and it keeps them, since slots and nodes are only ever added. -/
namespace TemplateEngine

open TemplateEngine.Text (NameParts)

def Callee.foreign : Callee → List String
  | .known t => [t.name]
  | .named name => [name]
  | .held _ => []

/-- The names of templates and operations that an action takes from outside the source. -/
def Action.foreign : Action → List String
  | .call c => c.callee.foreign
  | .exec op _ => [op.name]
  | .literal _ | .variable _ | .set .. | .debug .. => []

def Instr.foreign : Instr → List String
  | .action a => a.foreign
  | .branch .. | .otherwise | .loop .. | .endLoop => []

/-- The names from outside are names, and the text of each value tells the value. -/
structure Instr.Plain (a : Arena) (i : Instr) : Prop where
  foreign : ∀ name ∈ i.foreign, NameParts name
  values : ∀ o ∈ i.operands, ∀ v ∈ (o.form a).tree.values, v.Plain

instance (a : Arena) : DecidablePred (Instr.Plain a) :=
  fun _ => decidable_of_iff (_ ∧ _) ⟨fun h => ⟨h.1, h.2⟩, fun h => ⟨h.foreign, h.values⟩⟩

/-- Whatever the tables grow into, the instruction has names in the places of names. -/
def Instr.SoundFrom (t : Tables) (i : Instr) : Prop :=
  ∀ later : Tables, t.Grows later → later.Named → i.Plain later.arena →
    (i.form later.arena).Sound later.slots.shownName

theorem Instr.SoundFrom.mono {t t' : Tables} (ht : t.Grows t') {i : Instr} (h : i.SoundFrom t) :
    i.SoundFrom t' :=
  fun later hgrows => h later (ht.trans hgrows)

def Operand.SoundFrom (t : Tables) (o : Operand) : Prop :=
  ∀ later : Tables, t.Grows later → later.Named →
    (o.form later.arena).Simplest ∧ (o.form later.arena).tree.Sound later.slots.shownName

theorem Operand.SoundFrom.mono {t t' : Tables} (ht : t.Grows t') {o : Operand}
    (h : o.SoundFrom t) : o.SoundFrom t' :=
  fun later hgrows => h later (ht.trans hgrows)

theorem Operand.SoundFrom.form {t later : Tables} {o : Operand} (h : o.SoundFrom t)
    (hgrows : t.Grows later) (hlater : later.Named)
    (hvalues : ∀ v ∈ (o.form later.arena).tree.values, v.Plain) :
    (o.form later.arena).Sound later.slots.shownName :=
  have hsound := h later hgrows hlater
  ⟨hsound.1, hsound.2, hvalues⟩

namespace Tables

variable {o : CompileOptions} {t t' : Tables} {actions : List Action}

theorem knows_self (t : Tables) : t.Knows t.slots.names :=
  (eraseDups_of_nodup t.slots.nodup).symm

theorem Named.of_slots_eq (h : t.Named) (heq : t'.slots = t.slots) : t'.Named := by
  rw [Named, heq]
  exact h

theorem named_declare (h : t.Named) {name : String} (hname : Text.isName name.toList) :
    ∀ n ∈ (t.slots.declare name).1.names, Text.isName n.toList := by
  rw [SlotMap.names_declare]
  split
  · exact h
  · exact List.forall_mem_append.mpr ⟨h, List.forall_mem_singleton.mpr hname⟩

theorem named_declareParams {params : List String} (h : t.declareParams params = .ok t')
    (ht : t.Named) : t'.Named := by
  induction params generalizing t with
  | nil =>
    cases h
    exact ht
  | cons param rest ih =>
    unfold declareParams at h
    dsimp only at h
    split at h
    · cases h
    · next hname =>
      split at h
      · cases h
      · exact ih h (named_declare ht (by simpa using hname))

theorem declare_yields {name : List Char} {slot : SlotId} (h : t.declare name = .ok (slot, t')) :
    t.Grows t' ∧ (t.Named → t'.Named) ∧ t'.slots.lookup? (Text.trimmed name) = some slot := by
  obtain ⟨hname, rfl, rfl⟩ := of_declare h
  refine ⟨⟨t.slots.declare_prefix _, List.suffix_rfl⟩, fun ht => named_declare ht ?_,
    t.slots.lookup?_declare _⟩
  rwa [Text.trimmed, String.toList_ofList]

theorem operand_yields {text : List Char} {source : Operand} {unknown : List String}
    (h : t.operand o text = .ok (source, unknown, t')) :
    t.Grows t' ∧ t'.slots = t.slots ∧ source.SoundFrom t' :=
  ⟨(read_operand t.knows_self h).grows, slots_operand h,
    fun _ hgrows hlater => operand_sound h hgrows hlater⟩

theorem headerOperand_yields {text : List Char} {cond : Operand} {unknown : List String}
    (h : t.headerOperand o text = .ok (cond, unknown, t')) :
    t.Grows t' ∧ t'.slots = t.slots ∧ cond.SoundFrom t' :=
  ⟨(read_headerOperand t.knows_self h).grows, slots_headerOperand h,
    fun _ hgrows hlater => headerOperand_sound h hgrows hlater⟩

theorem Named.nameParts {later : Tables} (hlater : later.Named) (hgrows : t.Grows later)
    {name : String} {slot : SlotId} (h : t.slots.lookup? name = some slot) :
    NameParts (later.slots.shownName slot) := by
  obtain ⟨hshown, hname⟩ := hlater.shownName hgrows h
  rwa [hshown]

theorem sound_notes (t : Tables) (unknown : List String) :
    ∀ a ∈ notes unknown, (Instr.action a).SoundFrom t := by
  intro a ha
  obtain ⟨name, -, rfl⟩ := List.mem_map.mp ha
  exact fun _ _ _ _ => trivial

/-- Notes and one action. -/
theorem sound_append (unknown : List String) {a : Action} (ha : (Instr.action a).SoundFrom t) :
    ∀ a' ∈ notes unknown ++ [a], (Instr.action a').SoundFrom t :=
  List.forall_mem_append.mpr ⟨sound_notes t unknown, List.forall_mem_singleton.mpr ha⟩

/-- A marker takes the tables from `t` to `t'` and asks for such actions. -/
structure Yields (t : Tables) (actions : List Action) (t' : Tables) : Prop where
  grows : t.Grows t'
  named : t.Named → t'.Named
  sound : ∀ a ∈ actions, (Instr.action a).SoundFrom t'

theorem write_yields {path : List Char} (h : t.write o path = .ok (actions, t')) :
    t.Yields actions t' := by
  obtain ⟨⟨source, unknown, t₁⟩, hoperand, h⟩ := bind_eq_ok h
  cases h
  obtain ⟨hgrows, hslots, hsource⟩ := operand_yields hoperand
  refine ⟨hgrows, fun ht => ht.of_slots_eq hslots, ?_⟩
  split
  · rw [List.forall_mem_singleton]
    exact fun later hlater hnamed hplain =>
      hsource.form hlater hnamed (hplain.values source (List.mem_singleton_self _))
  · exact sound_notes _ unknown

theorem set_yields {var value : List Char} (h : t.set o var value = .ok (actions, t')) :
    t.Yields actions t' := by
  obtain ⟨⟨value', unknown, t₁⟩, hoperand, h⟩ := bind_eq_ok h
  obtain ⟨⟨target, t₂⟩, hdeclare, h⟩ := bind_eq_ok h
  cases h
  obtain ⟨hgrows, hslots, hvalue⟩ := operand_yields hoperand
  obtain ⟨hgrows', hnamed', htarget⟩ := declare_yields hdeclare
  refine ⟨hgrows.trans hgrows', fun ht => hnamed' (ht.of_slots_eq hslots), ?_⟩
  refine sound_append unknown fun later hlater hnamed hplain => ?_
  exact ⟨hnamed.nameParts hlater htarget, (hvalue.mono hgrows').form hlater hnamed
    (hplain.values value' (List.mem_singleton_self _))⟩

theorem debug_yields {value compare : Option (List Char)}
    (h : t.debug o value compare = .ok (actions, t')) : t.Yields actions t' := by
  unfold debug at h
  dsimp only at h
  split at h
  · cases h
    refine ⟨.refl t, id, ?_⟩
    rw [List.forall_mem_singleton]
    exact fun _ _ _ _ => nofun
  · obtain ⟨⟨value', unknown, t₁⟩, hoperand, h⟩ := bind_eq_ok h
    cases h
    obtain ⟨hgrows, hslots, hvalue⟩ := operand_yields hoperand
    refine ⟨hgrows, fun ht => ht.of_slots_eq hslots, sound_append unknown ?_⟩
    rintro later hlater hnamed hplain _ ⟨⟩
    exact hvalue.form hlater hnamed (hplain.values value' (List.mem_singleton_self _))

theorem exec_yields {op : List Char} {arg : Option (List Char)}
    (h : t.exec o op arg = .ok (actions, t')) : t.Yields actions t' := by
  unfold exec at h
  dsimp only at h
  split at h
  · split at h
    · next op' _ =>
      have hname {a : Arena} {arg : Option Operand}
          (hplain : (Instr.action (.exec op' arg)).Plain a) : NameParts op'.name :=
        hplain.foreign op'.name (List.mem_singleton_self _)
      split at h
      · cases h
      · cases h
      · cases h
        refine ⟨.refl t, id, ?_⟩
        rw [List.forall_mem_singleton]
        exact fun _ _ _ hplain => ⟨hname hplain, nofun⟩
      · obtain ⟨⟨arg', unknown, t₁⟩, hoperand, h⟩ := bind_eq_ok h
        cases h
        obtain ⟨hgrows, hslots, harg⟩ := operand_yields hoperand
        refine ⟨hgrows, fun ht => ht.of_slots_eq hslots, sound_append unknown ?_⟩
        refine fun later hlater hnamed hplain => ⟨hname hplain, ?_⟩
        rintro _ ⟨⟩
        exact harg.form hlater hnamed (hplain.values arg' (List.mem_singleton_self _))
    · cases h
  · cases h

theorem callee_sound {name : String} {callee : Callee} {u? : Option Template}
    (h : t.callee o name = .ok (callee, u?)) {later : Tables} (hgrows : t.Grows later)
    (hlater : later.Named) (hforeign : ∀ n ∈ callee.foreign, NameParts n) :
    callee.form.Sound later.slots.shownName := by
  unfold Tables.callee at h
  split at h
  · next slot hslot =>
    cases h
    exact hlater.nameParts hgrows hslot
  · cases h
    exact hforeign _ (List.mem_singleton_self _)
  · split at h
    · cases h
      exact hforeign _ (List.mem_singleton_self _)
    · cases h

theorem argument_yields {known : Option Template} {text : List Char} {arg : Argument}
    {unknown : List String} (h : t.argument o known text = .ok (arg, unknown, t')) :
    t.Grows t' ∧ NameParts arg.name ∧ arg.value.SoundFrom t' := by
  unfold argument at h
  split at h
  · cases h
  · next param value _ =>
    dsimp only at h
    split at h
    · cases h
    · next hname =>
      obtain ⟨slot, -, h⟩ := bind_eq_ok h
      obtain ⟨⟨value', unknown', t₁⟩, hoperand, h⟩ := bind_eq_ok h
      cases h
      obtain ⟨hgrows, -, hvalue⟩ := operand_yields hoperand
      refine ⟨hgrows, fun c hc => ?_, hvalue⟩
      rw [String.toList_ofList] at hc
      exact Text.isNamePart_of_isName (by simpa using hname) hc

theorem arguments_yields {known : Option Template} {texts : List (List Char)}
    {args : List Argument} {unknown : List String}
    (h : t.arguments o known texts = .ok (args, unknown, t')) :
    t.Grows t' ∧ ∀ arg ∈ args, NameParts arg.name ∧ arg.value.SoundFrom t' := by
  induction texts generalizing t args unknown with
  | nil =>
    cases h
    exact ⟨.refl _, List.forall_mem_nil _⟩
  | cons text rest ih =>
    obtain ⟨⟨arg, unknown₁, t₁⟩, harg, h⟩ := bind_eq_ok h
    obtain ⟨⟨args', more, t₂⟩, hargs, h⟩ := bind_eq_ok h
    cases h
    obtain ⟨hgrows, hname, hvalue⟩ := argument_yields harg
    obtain ⟨hgrows', hrest⟩ := ih hargs
    exact ⟨hgrows.trans hgrows', List.forall_mem_cons.mpr ⟨⟨hname, hvalue.mono hgrows'⟩, hrest⟩⟩

theorem call_yields {name : List Char} {args : Option (List Char)}
    (h : t.call o name args = .ok (actions, t')) : t.Yields actions t' := by
  obtain ⟨⟨callee, known⟩, hcallee, h⟩ := bind_eq_ok h
  obtain ⟨⟨args', unknown, t₁⟩, hargs, h⟩ := bind_eq_ok h
  cases h
  obtain ⟨hgrows, hsound⟩ := arguments_yields hargs
  have hslots := slots_arguments hargs
  refine ⟨⟨hgrows.slots, hgrows.arena⟩, fun ht => ht.of_slots_eq hslots, sound_append unknown ?_⟩
  intro later hlater hnamed hplain
  have hlater' : t₁.Grows later := ⟨hlater.slots, hlater.arena⟩
  refine ⟨callee_sound hcallee (hgrows.trans hlater') hnamed hplain.foreign, ?_⟩
  refine List.forall_mem_map.mpr fun arg harg => ⟨(hsound arg harg).1, ?_⟩
  exact (hsound arg harg).2.form hlater' hnamed (hplain.values arg.value (List.mem_map_of_mem harg))

theorem loopHeader_yields {var container : List Char} {header : Loop} {unknown : List String}
    (h : t.loopHeader o var container = .ok (header, unknown, t')) :
    t.Grows t' ∧ (t.Named → t'.Named) ∧ (Instr.loop header 0).SoundFrom t' := by
  obtain ⟨⟨container', unknown', t₁⟩, hcontainer, h⟩ := bind_eq_ok h
  obtain ⟨⟨entry, t₂⟩, hentry, h⟩ := bind_eq_ok h
  obtain ⟨⟨next, t₃⟩, hnext, h⟩ := bind_eq_ok h
  cases h
  have hlookahead := trimmed_lookahead (of_declare hentry).1
  obtain ⟨hgrows₁, hslots, hcontainer⟩ := headerOperand_yields hcontainer
  obtain ⟨hgrows₂, hnamed₂, hentry⟩ := declare_yields hentry
  obtain ⟨hgrows₃, hnamed₃, hnext⟩ := declare_yields hnext
  have hgrows := hgrows₂.trans hgrows₃
  refine ⟨hgrows₁.trans hgrows, fun ht => hnamed₃ (hnamed₂ (ht.of_slots_eq hslots)), ?_⟩
  intro later hlater hnamed hplain
  refine ⟨(hcontainer.mono hgrows).form hlater hnamed
    (hplain.values container' (List.mem_singleton_self _)),
    hnamed.nameParts (hgrows₃.trans hlater) hentry, ?_⟩
  rw [(hnamed.shownName hlater hnext).1, (hnamed.shownName (hgrows₃.trans hlater) hentry).1,
    hlookahead]

end Tables

/-- Instructions without their jumps, as far as they show any operand or name. -/
def Instr.bodies : Instr.View Instr where
  sees
    | .action (.literal _) | .otherwise | .endLoop => []
    | .action a => [.action a]
    | .branch first cond _ _ => [.branch first cond 0 0]
    | .loop header _ => [.loop header 0]
  setNext _ i := by cases i <;> rfl
  setStop _ i := by cases i <;> rfl

theorem Instr.textless_bodies : bodies.Textless :=
  fun _ => rfl

theorem Instr.mem_bodies {a : Action} {i : Instr} (h : i ∈ bodies.sees (.action a)) :
    i = .action a := by
  cases a <;> simp_all [bodies]

namespace Emitter

/-- All that is laid out so far has names in the places of names. -/
structure Sound (e : Emitter) : Prop where
  named : e.tables.Named
  bodies : ∀ i ∈ e.seen Instr.bodies, i.SoundFrom e.tables

variable {o : CompileOptions} {e e' : Emitter}

theorem Sound.add (h : e.Sound) (hgrows : e.tables.Grows e'.tables) (hnamed : e'.tables.Named)
    {more : List Instr} (hseen : e'.seen Instr.bodies = e.seen Instr.bodies ++ more)
    (hmore : ∀ i ∈ more, i.SoundFrom e'.tables) : e'.Sound := by
  refine ⟨hnamed, ?_⟩
  rw [hseen]
  exact List.forall_mem_append.mpr ⟨fun i hi => (h.bodies i hi).mono hgrows, hmore⟩

theorem Sound.of_seen_eq (h : e.Sound) (htables : e'.tables = e.tables)
    (hseen : e'.seen Instr.bodies = e.seen Instr.bodies) : e'.Sound := by
  refine h.add ?_ ?_ (by rw [hseen, List.append_nil]) (List.forall_mem_nil _)
  · rw [htables]
    exact .refl _
  · rw [htables]
    exact h.named

theorem Sound.flush (h : e.Sound) : e.flush.Sound :=
  h.of_seen_eq e.flush_tables (e.seen_flush Instr.textless_bodies)

theorem Sound.perform (h : e.Sound) {marker : Except Fault (List Action × Tables)}
    (hmarker : ∀ {actions tables}, marker = .ok (actions, tables) →
      e.tables.Yields actions tables) (he : e.perform marker = .ok e') : e'.Sound := by
  obtain ⟨⟨actions, tables⟩, hmarker', he⟩ := bind_eq_ok he
  cases he
  obtain ⟨hgrows, hnamed, hsound⟩ := hmarker hmarker'
  have hseen := e.flush.seen_emitAll Instr.bodies actions
  rw [e.seen_flush Instr.textless_bodies] at hseen
  refine h.add hgrows (hnamed h.named) hseen fun i hi => ?_
  obtain ⟨a, ha, hi⟩ := List.mem_flatMap.mp hi
  rw [Instr.mem_bodies hi]
  exact hsound a ha

/-- The header of a block comes after its notes. -/
theorem Sound.header (h : e.Sound) (unknown : List String) {i : Instr} {tables : Tables}
    {blocks : List OpenBlock} (hgrows : e.tables.Grows tables) (hnamed : tables.Named)
    (hi : ∀ j ∈ Instr.bodies.sees i, j.SoundFrom tables) :
    Sound { (e.emitAll (notes unknown)).emit i with tables, blocks } := by
  have hseen := (e.emitAll (notes unknown)).seen_emit Instr.bodies i
  rw [e.seen_notes Instr.textless_bodies] at hseen
  exact h.add hgrows hnamed hseen hi

theorem Sound.closeLink (h : e.Sound) {next : BranchKind} (he : e.closeLink next = .ok e') :
    e'.Sound := by
  obtain ⟨htables, hseen⟩ := seen_closeLink Instr.bodies he
  exact h.of_seen_eq htables (hseen.trans (e.seen_flush Instr.textless_bodies))

theorem sound_branch {t : Tables} {cond : Operand} (h : cond.SoundFrom t) (first : Bool) :
    (Instr.branch first cond 0 0).SoundFrom t :=
  fun _ hlater hnamed hplain =>
    h.form hlater hnamed (hplain.values cond (List.mem_singleton_self _))

theorem Sound.directive (h : e.Sound) {span : Text.Span} {d : Directive}
    (he : e.directive o span d = .ok e') : e'.Sound := by
  match d with
  | .variable path => exact h.perform Tables.write_yields he
  | .openIf cond =>
    obtain ⟨⟨cond', unknown, tables⟩, hcond, he⟩ := bind_eq_ok he
    cases he
    obtain ⟨hgrows, hslots, hsound⟩ := Tables.headerOperand_yields hcond
    rw [← e.flush_tables] at hgrows hslots
    exact h.flush.header unknown hgrows (h.flush.named.of_slots_eq hslots)
      (List.forall_mem_singleton.mpr (sound_branch hsound true))
  | .elsif cond =>
    obtain ⟨e₁, hclose, he⟩ := bind_eq_ok he
    obtain ⟨⟨cond', unknown, tables⟩, hcond, he⟩ := bind_eq_ok he
    cases he
    obtain ⟨hgrows, hslots, hsound⟩ := Tables.headerOperand_yields hcond
    have hlink := h.closeLink hclose
    exact hlink.header unknown hgrows (hlink.named.of_slots_eq hslots)
      (List.forall_mem_singleton.mpr (sound_branch hsound false))
  | .otherwise =>
    obtain ⟨e₁, hclose, he⟩ := bind_eq_ok he
    cases he
    have hseen := e₁.seen_emit Instr.bodies .otherwise
    exact (h.closeLink hclose).of_seen_eq rfl (hseen.trans (List.append_nil _))
  | .closeIf =>
    obtain ⟨htables, hseen⟩ := seen_closeIf Instr.bodies he
    exact h.of_seen_eq htables (hseen.trans (e.seen_flush Instr.textless_bodies))
  | .openFor var container =>
    obtain ⟨⟨header, unknown, tables⟩, hheader, he⟩ := bind_eq_ok he
    cases he
    obtain ⟨hgrows, hnamed, hsound⟩ := Tables.loopHeader_yields hheader
    rw [← e.flush_tables] at hgrows hnamed
    exact h.flush.header unknown hgrows (hnamed h.flush.named)
      (List.forall_mem_singleton.mpr hsound)
  | .closeFor =>
    obtain ⟨htables, hseen⟩ := seen_closeFor Instr.bodies he
    exact h.of_seen_eq htables
      (hseen.trans ((List.append_nil _).trans (e.seen_flush Instr.textless_bodies)))
  | .set var value => exact h.perform Tables.set_yields he
  | .call name args => exact h.perform Tables.call_yields he
  | .exec op arg => exact h.perform Tables.exec_yields he
  | .debug value compare => exact h.perform Tables.debug_yields he

theorem Sound.addPieces {pieces : List Piece} (h : e.Sound)
    (he : addPieces o e pieces = .ok e') : e'.Sound := by
  induction pieces generalizing e with
  | nil =>
    cases he
    exact h
  | cons p rest ih =>
    cases p with
    | text cs => exact ih (e := e.addText cs) ⟨h.named, h.bodies⟩ he
    | fault f span => cases he
    | directive d span =>
      rw [Emitter.addPieces] at he
      split at he
      · cases he
      · next hd => exact ih (h.directive hd) he

/-- Jumps do not matter, and what is not in view refers to nothing. -/
theorem Sound.sound_form (h : e.Sound) {i : Instr} (hi : i ∈ e.instrs.toList)
    (hplain : i.Plain e.tables.arena) :
    (i.form e.tables.arena).Sound e.tables.slots.shownName := by
  have hbody (j : Instr) (hj : j ∈ Instr.bodies.sees i) (hplain : j.Plain e.tables.arena) :=
    h.bodies j (List.mem_flatMap.mpr ⟨i, hi, hj⟩) e.tables (.refl _) h.named hplain
  cases i with
  | action a =>
    match a with
    | .literal _ => trivial
    | .variable _ | .set .. | .call .. | .exec .. | .debug .. =>
      exact hbody _ (List.mem_singleton_self _) hplain
  | branch first cond next stop =>
    exact hbody (.branch first cond 0 0) (List.mem_singleton_self _)
      ⟨hplain.foreign, hplain.values⟩
  | loop header stop =>
    exact hbody (.loop header 0) (List.mem_singleton_self _) ⟨hplain.foreign, hplain.values⟩
  | otherwise | endLoop => trivial

end Emitter

/-- The names that a program takes from outside are names, and the text of each value in it tells
the value. -/
structure Program.Plain (p : Program) : Prop where
  name : NameParts p.name
  instrs : ∀ i ∈ p.instrs, i.Plain p.arena

instance : DecidablePred Program.Plain :=
  fun _ => decidable_of_iff (_ ∧ _) ⟨fun h => ⟨h.1, h.2⟩, fun h => ⟨h.name, h.instrs⟩⟩

theorem legible_of_compile {name : String} {source : List Char} {o : CompileOptions} {p : Program}
    (h : compile name source o = .ok p) (hplain : p.Plain) : p.Legible := by
  have hrefs := wellReferenced_of_compile h
  obtain ⟨tables, e, htables, hpieces, rfl⟩ := layout_of_compile h
  have hstart : Emitter.Sound { tables } :=
    ⟨Tables.named_declareParams htables (List.forall_mem_nil _), List.forall_mem_nil _⟩
  have hsound := (hstart.addPieces hpieces).flush
  exact {
    name := hplain.name
    params := fun param hparam => hsound.named param (List.mem_of_mem_take hparam)
    slots := fun i hi => (hrefs.instrs i hi).slots
    within := fun i hi => (hrefs.instrs i hi).operands
    grounded := hrefs.nodes
    sound := fun i hi => hsound.sound_form hi (hplain.instrs i hi) }

end TemplateEngine

import TemplateEngine.Proofs.Nested.Layout

/-! Calls with their callees by name. Which templates are known when a source is compiled decides
which calls are bound there, and nothing else: seen by name, the program is always the same. -/
namespace TemplateEngine

def Callee.byName : Callee → Callee
  | .known t => .named t.name
  | .named name => .named name
  | .held slot => .held slot

def Argument.byName (a : Argument) : Argument :=
  { a with slot := none }

def Call.byName (c : Call) : Call :=
  { c with callee := c.callee.byName, args := c.args.map Argument.byName }

def Action.byName : Action → Action
  | .call c => .call c.byName
  | a => a

def Instr.byName : Instr → Instr
  | .action a => .action a.byName
  | i => i

def Emitter.byName (e : Emitter) : Emitter :=
  { e with instrs := e.instrs.map Instr.byName }

/-- A program that does not tell what was known when it was compiled. -/
def Program.byName (p : Program) : Program :=
  { p with instrs := p.instrs.map Instr.byName, registry := none }

/-- Nothing is known but the names that can be called. -/
def CompileOptions.byName (o : CompileOptions) (names : List String) : CompileOptions :=
  { o with known := {}, registry := none, forward := names }

/-- All that a source can call is among these names, under its own name. -/
structure CompileOptions.Names (o : CompileOptions) (names : List String) : Prop where
  known : ∀ name u, o.known.resolve? name = some u → u.name = name ∧ name ∈ names
  forward : ∀ name ∈ o.forward, name ∈ names

theorem notes_byName (unknown : List String) :
    (notes unknown).map Action.byName = notes unknown := by
  simp [notes, Action.byName]

namespace Tables

variable {o : CompileOptions} {t t' : Tables} {names : List String} {actions : List Action}

theorem callee_byName (hnames : o.Names names) {name : String} {callee : Callee}
    {known : Option Template} (h : t.callee o name = .ok (callee, known)) :
    t.callee (o.byName names) name = .ok (callee.byName, none) := by
  have hnone : (o.byName names).known.resolve? name = none := rfl
  unfold Tables.callee at h
  split at h
  · next slot hslot =>
    cases h
    simp only [Tables.callee, hslot, Callee.byName]
  · next u hslot hu =>
    cases h
    obtain ⟨hname, hmem⟩ := hnames.known name u hu
    have hforward : (o.byName names).forward.contains name = true := List.contains_iff_mem.mpr hmem
    simp only [Tables.callee, hslot, hnone, hforward, if_true, Callee.byName, Template.ref, hname]
  · next hslot _ =>
    split at h
    · next hcontains =>
      cases h
      have hmem := hnames.forward name (List.contains_iff_mem.mp hcontains)
      have hforward : (o.byName names).forward.contains name = true :=
        List.contains_iff_mem.mpr hmem
      simp only [Tables.callee, hslot, hnone, hforward, if_true, Callee.byName]
    · cases h

theorem argument_byName (names : List String) {known : Option Template} {text : List Char}
    {a : Argument} {unknown : List String} (h : t.argument o known text = .ok (a, unknown, t')) :
    t.argument (o.byName names) none text = .ok (a.byName, unknown, t') := by
  unfold Tables.argument at h ⊢
  split at h
  · cases h
  · dsimp only at h ⊢
    split at h
    · cases h
    · next hname =>
      obtain ⟨slot, -, h⟩ := bind_eq_ok h
      obtain ⟨⟨value, unknown', t₁⟩, hoperand, h⟩ := bind_eq_ok h
      cases h
      rw [if_neg hname]
      change (t.operand o _ >>= _) = _
      rw [hoperand]
      rfl

theorem arguments_byName (names : List String) {known : Option Template} {texts : List (List Char)}
    {args : List Argument} {unknown : List String}
    (h : t.arguments o known texts = .ok (args, unknown, t')) :
    t.arguments (o.byName names) none texts = .ok (args.map Argument.byName, unknown, t') := by
  induction texts generalizing t args unknown with
  | nil =>
    cases h
    rfl
  | cons text rest ih =>
    obtain ⟨⟨a, unknown₁, t₁⟩, ha, h⟩ := bind_eq_ok h
    obtain ⟨⟨args₁, more, t₂⟩, hargs, h⟩ := bind_eq_ok h
    cases h
    rw [Tables.arguments, argument_byName names ha]
    change (t₁.arguments (o.byName names) none rest >>= _) = _
    rw [ih hargs]
    rfl

theorem call_byName (hnames : o.Names names) {name : List Char} {args : Option (List Char)}
    (h : t.call o name args = .ok (actions, t')) :
    t.call (o.byName names) name args = .ok (actions.map Action.byName, t') := by
  obtain ⟨⟨callee, known⟩, hcallee, h⟩ := bind_eq_ok h
  obtain ⟨⟨args', unknown, t₁⟩, hargs, h⟩ := bind_eq_ok h
  cases h
  rw [Tables.call, callee_byName hnames hcallee]
  change (t.arguments (o.byName names) none _ >>= _) = _
  rw [arguments_byName names hargs, List.map_append, notes_byName]
  rfl

/-! The other markers ask for no calls. -/

theorem write_byName {path : List Char} (h : t.write o path = .ok (actions, t')) :
    actions.map Action.byName = actions := by
  obtain ⟨⟨source, unknown, t₁⟩, -, h⟩ := bind_eq_ok h
  cases h
  split
  · rfl
  · exact notes_byName unknown

theorem set_byName {var value : List Char} (h : t.set o var value = .ok (actions, t')) :
    actions.map Action.byName = actions := by
  obtain ⟨⟨value, unknown, t₁⟩, -, h⟩ := bind_eq_ok h
  obtain ⟨⟨target, t₂⟩, -, h⟩ := bind_eq_ok h
  cases h
  rw [List.map_append, notes_byName]
  rfl

theorem exec_byName {op : List Char} {arg : Option (List Char)}
    (h : t.exec o op arg = .ok (actions, t')) : actions.map Action.byName = actions := by
  unfold Tables.exec at h
  dsimp only at h
  split at h
  · split at h
    · split at h
      · cases h
      · cases h
      · cases h
        rfl
      · obtain ⟨⟨arg', unknown, t₁⟩, -, h⟩ := bind_eq_ok h
        cases h
        rw [List.map_append, notes_byName]
        rfl
    · cases h
  · cases h

theorem debug_byName {value compare : Option (List Char)}
    (h : t.debug o value compare = .ok (actions, t')) : actions.map Action.byName = actions := by
  unfold Tables.debug at h
  dsimp only at h
  split at h
  · cases h
    rfl
  · obtain ⟨⟨value, unknown, t₁⟩, -, h⟩ := bind_eq_ok h
    cases h
    rw [List.map_append, notes_byName]
    rfl

end Tables

theorem Array.map_modify_comm {α β : Type} (g : α → β) {f : α → α} {f' : β → β}
    (hf : ∀ a, g (f a) = f' (g a)) (xs : Array α) (place : Nat) :
    (xs.modify place f).map g = (xs.map g).modify place f' := by
  apply Array.ext
  · simp
  · intro i _ _
    simp only [Array.getElem_map, Array.getElem_modify]
    split
    · exact hf _
    · rfl

namespace Emitter

variable {o : CompileOptions} {e e' : Emitter} {names : List String} {span : Text.Span}

theorem emit_byName (e : Emitter) (i : Instr) : e.byName.emit i.byName = (e.emit i).byName := by
  simp only [emit, byName, Array.map_push]

theorem flush_byName (e : Emitter) : e.byName.flush = e.flush.byName := by
  unfold flush
  change (if e.text.isEmpty then _ else _) = _
  split
  · rfl
  · exact congrArg (fun e : Emitter => { e with text := [] })
      (e.emit_byName (.action (.literal (String.ofList e.text))))

theorem emitAll_byName (e : Emitter) (actions : List Action) :
    e.byName.emitAll (actions.map Action.byName) = (e.emitAll actions).byName := by
  induction actions generalizing e with
  | nil => rfl
  | cons a rest ih =>
    have hemit := e.emit_byName (.action a)
    rw [List.map_cons, emitAll, List.foldl_cons]
    exact (congrArg (fun e : Emitter => e.emitAll (rest.map Action.byName)) hemit).trans (ih _)

theorem notes_layout_byName (e : Emitter) (unknown : List String) :
    e.byName.emitAll (notes unknown) = (e.emitAll (notes unknown)).byName := by
  have h := e.emitAll_byName (notes unknown)
  rwa [notes_byName] at h

theorem patch_byName (e : Emitter) (place : Nat) {f : Instr → Instr}
    (hf : ∀ i, (f i).byName = f i.byName) : e.byName.patch place f = (e.patch place f).byName := by
  simp only [patch, byName, Array.map_modify_comm Instr.byName hf]

theorem setNext_byName (next : Nat) (i : Instr) :
    (i.setNext next).byName = i.byName.setNext next := by
  cases i <;> rfl

theorem setStop_byName (stop : Nat) (i : Instr) :
    (i.setStop stop).byName = i.byName.setStop stop := by
  cases i <;> rfl

@[simp] theorem size_byName (e : Emitter) : e.byName.instrs.size = e.instrs.size :=
  Array.size_map

theorem perform_byName {marker marker' : Except Fault (List Action × Tables)}
    (hmarker : ∀ actions t, marker = .ok (actions, t) →
      marker' = .ok (actions.map Action.byName, t))
    (h : e.perform marker = .ok e') : e.byName.perform marker' = .ok e'.byName := by
  obtain ⟨⟨actions, tables⟩, hok, h⟩ := bind_eq_ok h
  cases h
  rw [perform, hmarker actions tables hok, flush_byName]
  exact congrArg (fun e : Emitter => Except.ok { e with tables })
    (e.flush.emitAll_byName actions)

theorem openIf_byName {cond : List Char} (h : e.openIf o span cond = .ok e') :
    e.byName.openIf (o.byName names) span cond = .ok e'.byName := by
  obtain ⟨⟨op, unknown, tables⟩, hop, h⟩ := bind_eq_ok h
  cases h
  change (e.tables.headerOperand o cond >>= _) = _
  rw [hop, flush_byName]
  dsimp only [bind, Except.bind, pure, Except.pure]
  rw [notes_layout_byName, size_byName]
  simp only [emit, byName, Array.map_push, Instr.byName]

theorem openFor_byName {var container : List Char} (h : e.openFor o span var container = .ok e') :
    e.byName.openFor (o.byName names) span var container = .ok e'.byName := by
  obtain ⟨⟨header, unknown, tables⟩, hheader, h⟩ := bind_eq_ok h
  cases h
  change (e.tables.loopHeader o var container >>= _) = _
  rw [hheader, flush_byName]
  dsimp only [bind, Except.bind, pure, Except.pure]
  rw [notes_layout_byName, size_byName]
  simp only [emit, byName, Array.map_push, Instr.byName]

theorem closeLink_byName {next : BranchKind} (h : e.closeLink next = .ok e') :
    e.byName.closeLink next = .ok e'.byName := by
  rw [closeLink] at h ⊢
  rw [flush_byName]
  generalize e.flush = e at h ⊢
  have hsame : e.byName.blocks = e.blocks := rfl
  rw [hsame]
  split at h
  · cases h
  · next opened last earlier rest hblocks =>
    cases h
    rw [size_byName]
    exact congrArg Except.ok (patch_byName e last (setNext_byName _))
  · cases h

theorem otherwise_byName (h : e.otherwise = .ok e') : e.byName.otherwise = .ok e'.byName := by
  obtain ⟨e₁, hlink, h⟩ := bind_eq_ok h
  cases h
  rw [otherwise, closeLink_byName hlink]
  dsimp only [bind, Except.bind, pure, Except.pure]
  simp only [emit, byName, Array.map_push, Instr.byName]

theorem elsif_byName {cond : List Char} (h : e.elsif o cond = .ok e') :
    e.byName.elsif (o.byName names) cond = .ok e'.byName := by
  obtain ⟨e₁, hlink, h⟩ := bind_eq_ok h
  obtain ⟨⟨op, unknown, tables⟩, hop, h⟩ := bind_eq_ok h
  cases h
  rw [elsif, closeLink_byName hlink]
  change (e₁.tables.headerOperand o cond >>= _) = _
  rw [hop]
  dsimp only [bind, Except.bind, pure, Except.pure]
  rw [notes_layout_byName, size_byName]
  simp only [emit, byName, Array.map_push, Instr.byName]

theorem foldl_patch_byName (e : Emitter) (places : List Nat) {f : Nat → Instr → Instr}
    (hf : ∀ place i, (f place i).byName = f place i.byName) :
    places.foldl (fun e place => e.patch place (f place)) e.byName =
      (places.foldl (fun e place => e.patch place (f place)) e).byName := by
  induction places generalizing e with
  | nil => rfl
  | cons place rest ih =>
    rw [List.foldl_cons, List.foldl_cons, patch_byName e place (hf place)]
    exact ih _

theorem closeIf_byName (h : e.closeIf = .ok e') : e.byName.closeIf = .ok e'.byName := by
  rw [closeIf] at h ⊢
  rw [flush_byName]
  generalize e.flush = e at h ⊢
  have hsame : e.byName.blocks = e.blocks := rfl
  dsimp only at h ⊢
  rw [hsame, size_byName]
  split at h
  · next opened links hasElse rest hblocks =>
    have hlast (last : Option Nat) :
        last.elim e.byName (fun l => e.byName.patch l (Instr.setNext (e.instrs.size - l))) =
          (last.elim e fun l => e.patch l (Instr.setNext (e.instrs.size - l))).byName := by
      cases last with
      | none => rfl
      | some l => exact patch_byName e l (setNext_byName _)
    cases h
    rw [hlast, foldl_patch_byName _ links fun _ => setStop_byName _]
    rfl
  · cases h
  · cases h

theorem closeFor_byName (h : e.closeFor = .ok e') : e.byName.closeFor = .ok e'.byName := by
  rw [closeFor] at h ⊢
  rw [flush_byName]
  generalize e.flush = e at h ⊢
  have hsame : e.byName.blocks = e.blocks := rfl
  dsimp only at h ⊢
  rw [hsame]
  split at h
  · next opened header rest hblocks =>
    cases h
    have hemit : e.byName.emit .endLoop = (e.emit .endLoop).byName := e.emit_byName .endLoop
    rw [hemit, size_byName, patch_byName _ header (setStop_byName _)]
    rfl
  · cases h
  · cases h

theorem directive_byName (hnames : o.Names names) {d : Directive}
    (h : e.directive o span d = .ok e') :
    e.byName.directive (o.byName names) span d = .ok e'.byName := by
  match d, h with
  | .openIf _, h => exact openIf_byName h
  | .elsif _, h => exact elsif_byName h
  | .otherwise, h => exact otherwise_byName h
  | .closeIf, h => exact closeIf_byName h
  | .openFor _ _, h => exact openFor_byName h
  | .closeFor, h => exact closeFor_byName h
  | .call _ _, h => exact perform_byName (fun _ _ h => Tables.call_byName hnames h) h
  | .variable _, h => exact perform_byName (fun _ _ h => (Tables.write_byName h).symm ▸ h) h
  | .set _ _, h => exact perform_byName (fun _ _ h => (Tables.set_byName h).symm ▸ h) h
  | .exec _ _, h => exact perform_byName (fun _ _ h => (Tables.exec_byName h).symm ▸ h) h
  | .debug _ _, h => exact perform_byName (fun _ _ h => (Tables.debug_byName h).symm ▸ h) h

theorem addPieces_byName (hnames : o.Names names) {pieces : List Piece}
    (h : e.addPieces o pieces = .ok e') :
    e.byName.addPieces (o.byName names) pieces = .ok e'.byName := by
  induction pieces generalizing e with
  | nil =>
    cases h
    rfl
  | cons p rest ih =>
    cases p with
    | text cs => exact ih (e := e.addText cs) h
    | fault f span => cases h
    | directive d span =>
      rw [addPieces] at h ⊢
      split at h
      · cases h
      · next hd =>
        rw [directive_byName hnames hd]
        exact ih h

theorem finish_byName {source : List Char} (h : e.finish source = .ok e') :
    e.byName.finish source = .ok e'.byName := by
  have hsame : e.byName.blocks = e.blocks := rfl
  rw [finish] at h ⊢
  rw [hsame]
  split at h
  · cases h
    exact congrArg Except.ok e.flush_byName
  · cases h

theorem ofSource_byName (hnames : o.Names names) {source : List Char}
    (h : ofSource o source = .ok e) : ofSource (o.byName names) source = .ok e.byName := by
  unfold ofSource at h
  split at h
  · cases h
  · next tables hparams =>
    obtain ⟨e₁, hpieces, hfinish⟩ := bind_eq_ok h
    have hparams' : Tables.declareParams {} (o.byName names).params = .ok tables := hparams
    have hstart : ({ tables } : Emitter).byName = { tables } := by simp [byName]
    have hpieces' := addPieces_byName hnames hpieces
    rw [hstart] at hpieces'
    rw [ofSource, hparams']
    dsimp only
    rw [hpieces']
    exact finish_byName hfinish

end Emitter

/-- What is known when a source is compiled makes no difference to the program seen by name. -/
theorem compile_byName {name : String} {source : List Char} {o : CompileOptions} {p : Program}
    {names : List String} (hnames : o.Names names) (h : compile name source o = .ok p) :
    compile name source (o.byName names) = .ok p.byName := by
  unfold compile at h ⊢
  split at h
  · cases h
  · next e he =>
    cases h
    rw [Emitter.ofSource_byName hnames he]
    simp only [Emitter.program, Program.byName, Emitter.byName, Array.toList_map,
      CompileOptions.byName]

end TemplateEngine

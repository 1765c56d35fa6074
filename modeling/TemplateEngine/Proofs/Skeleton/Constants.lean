import TemplateEngine.Proofs.Nested.Views
import TemplateEngine.Proofs.References.Program
import TemplateEngine.Proofs.Skeleton.Tables

/-! Constants never decide structure. The same source compiled against other constants is accepted
or refused with the same fault, and its blocks, slots and calls are the same. What differs is the
operands and which texts stand between the instructions, so that headers lie at other places; but a
header is only ever filled in by its own block. -/
namespace TemplateEngine

/-- The same block, whose headers may be at other places. -/
inductive OpenBlock.Alike : OpenBlock → OpenBlock → Prop where
  | choice {opened : Text.Span} {links links' : List Nat} {hasElse : Bool} :
    links.length = links'.length →
    Alike (.choice opened links hasElse) (.choice opened links' hasElse)
  | loop {opened : Text.Span} {header header' : Nat} :
    Alike (.loop opened header) (.loop opened header')

namespace OpenBlock.Alike

variable {block block' : OpenBlock} (h : block.Alike block')
include h

theorem kind : block.kind = block'.kind := by
  cases h <;> rfl

theorem opened : block.opened = block'.opened := by
  cases h <;> rfl

theorem withElse : block.withElse.Alike block'.withElse := by
  cases h with
  | choice hlinks => exact .choice hlinks
  | loop => exact .loop

theorem addLink (place place' : Nat) : (block.addLink place).Alike (block'.addLink place') := by
  cases h with
  | choice hlinks => exact .choice (congrArg (· + 1) hlinks)
  | loop => exact .loop

end OpenBlock.Alike

theorem modifyHead_alike {blocks blocks' : List OpenBlock} {f f' : OpenBlock → OpenBlock}
    (hf : ∀ b b', b.Alike b' → (f b).Alike (f' b'))
    (h : List.Forall₂ OpenBlock.Alike blocks blocks') :
    List.Forall₂ OpenBlock.Alike (blocks.modifyHead f) (blocks'.modifyHead f') := by
  cases h with
  | nil => exact .nil
  | cons hblock hrest => exact .cons (hf _ _ hblock) hrest

theorem skeleton?_setNext (next : Nat) (i : Instr) : (i.setNext next).skeleton? = i.skeleton? := by
  cases i <;> rfl

theorem skeleton?_setStop (stop : Nat) (i : Instr) : (i.setStop stop).skeleton? = i.skeleton? := by
  cases i <;> rfl

def skeletonView : Instr.View Skeleton where
  sees i := i.skeleton?.toList
  setNext next i := congrArg Option.toList (skeleton?_setNext next i)
  setStop stop i := congrArg Option.toList (skeleton?_setStop stop i)

namespace Emitter

def skeleton (e : Emitter) : List Skeleton :=
  e.instrs.toList.filterMap Instr.skeleton?

theorem skeleton_eq_seen (e : Emitter) : e.skeleton = e.seen skeletonView :=
  List.filterMap_eq_flatMap_toList _ _

structure Alike (e e' : Emitter) : Prop where
  tables : e.tables.Alike e'.tables
  skeleton : e.skeleton = e'.skeleton
  blocks : List.Forall₂ OpenBlock.Alike e.blocks e'.blocks

theorem skeleton_emit (e : Emitter) (i : Instr) :
    (e.emit i).skeleton = e.skeleton ++ i.skeleton?.toList := by
  rw [skeleton_eq_seen, seen_emit, skeleton_eq_seen]
  rfl

theorem skeleton_emitAll (e : Emitter) (actions : List Action) :
    (e.emitAll actions).skeleton = e.skeleton ++ actions.filterMap Action.skeleton? := by
  rw [skeleton_eq_seen, seen_emitAll, skeleton_eq_seen, List.filterMap_eq_flatMap_toList]
  rfl

theorem skeleton_flush (e : Emitter) : e.flush.skeleton = e.skeleton := by
  rw [skeleton_eq_seen, seen_flush e fun _ => rfl, skeleton_eq_seen]

theorem skeleton_patch (e : Emitter) (place : Nat) {f : Instr → Instr}
    (hf : ∀ i, (f i).skeleton? = i.skeleton?) : (e.patch place f).skeleton = e.skeleton := by
  rw [skeleton_eq_seen, seen_patch skeletonView e place fun i => congrArg Option.toList (hf i),
    skeleton_eq_seen]

/-- Filling in the headers of a chain. -/
theorem same_closed (e : Emitter) (last : Option Nat) (links : List Nat) :
    let led := last.elim e fun l => e.patch l (Instr.setNext (e.instrs.size - l))
    let closed :=
      links.foldl (fun k link => k.patch link (Instr.setStop (e.instrs.size - link))) led
    closed.tables = e.tables ∧ closed.skeleton = e.skeleton := by
  intro led closed
  obtain ⟨htables, hseen⟩ := e.seen_closed skeletonView last links
  refine ⟨htables, ?_⟩
  rw [skeleton_eq_seen, skeleton_eq_seen]
  exact hseen

variable {o : CompileOptions} {e e' : Emitter}

theorem Alike.congr {k k' : Emitter} (h : e.Alike e')
    (hk : k.tables = e.tables ∧ k.skeleton = e.skeleton)
    (hk' : k'.tables = e'.tables ∧ k'.skeleton = e'.skeleton) {blocks blocks' : List OpenBlock}
    (hblocks : List.Forall₂ OpenBlock.Alike blocks blocks') :
    Alike { k with blocks } { k' with blocks := blocks' } :=
  ⟨by rw [hk.1, hk'.1]; exact h.tables, hk.2.trans (h.skeleton.trans hk'.2.symm), hblocks⟩

/-- Instructions with the same skeleton are laid down. -/
theorem Alike.emit (h : e.Alike e') {i i' : Instr} (hi : i.skeleton? = i'.skeleton?) :
    (e.emit i).Alike (e'.emit i') :=
  ⟨h.tables, by rw [skeleton_emit, skeleton_emit, h.skeleton, hi], h.blocks⟩

theorem Alike.emitAll (h : e.Alike e') {actions actions' : List Action}
    (hactions : actions.filterMap Action.skeleton? = actions'.filterMap Action.skeleton?) :
    (e.emitAll actions).Alike (e'.emitAll actions') where
  tables := by rw [emitAll_eq, emitAll_eq]; exact h.tables
  skeleton := by rw [skeleton_emitAll, skeleton_emitAll, h.skeleton, hactions]
  blocks := by rw [emitAll_eq, emitAll_eq]; exact h.blocks

theorem Alike.notes (h : e.Alike e') (unknown unknown' : List String) :
    (e.emitAll (notes unknown)).Alike (e'.emitAll (notes unknown')) :=
  h.emitAll (by rw [skeleton_notes, skeleton_notes])

theorem Alike.flush (h : e.Alike e') : e.flush.Alike e'.flush where
  tables := by rw [flush_tables, flush_tables]; exact h.tables
  skeleton := by rw [skeleton_flush, skeleton_flush, h.skeleton]
  blocks := by rw [flush_blocks, flush_blocks]; exact h.blocks

theorem Alike.patch (h : e.Alike e') {f f' : Instr → Instr}
    (hf : ∀ i, (f i).skeleton? = i.skeleton?) (hf' : ∀ i, (f' i).skeleton? = i.skeleton?)
    (place place' : Nat) : (e.patch place f).Alike (e'.patch place' f') :=
  ⟨h.tables, by rw [skeleton_patch e place hf, skeleton_patch e' place' hf', h.skeleton], h.blocks⟩

section Markers

variable (h : e.Alike e') (constants : List (String × Value)) (span : Text.Span)
include h

theorem Alike.perform {marker marker' : Except Fault (List Action × Tables)}
    (hmarker : Agree Tables.SameMarker marker marker') :
    Agree Alike (e.perform marker) (e'.perform marker') := by
  apply hmarker.bind
  intro r r' hr
  have hlaid := h.flush.emitAll hr.skeleton
  exact .ok ⟨hr.tables, hlaid.skeleton, hlaid.blocks⟩

theorem Alike.openIf (cond : List Char) :
    Agree Alike (e.openIf o span cond) (e'.openIf { o with constants } span cond) := by
  unfold Emitter.openIf
  apply (h.tables.headerOperand constants cond).bind
  rintro ⟨op, unknown, tables⟩ ⟨op', unknown', tables'⟩ htables
  have hheader : (Instr.branch true op 0 0).skeleton? = (Instr.branch true op' 0 0).skeleton? := rfl
  have hlaid := (h.flush.notes unknown unknown').emit hheader
  exact .ok ⟨htables, hlaid.skeleton, .cons (.choice rfl) hlaid.blocks⟩

theorem Alike.openFor (var container : List Char) :
    Agree Alike (e.openFor o span var container)
      (e'.openFor { o with constants } span var container) := by
  unfold Emitter.openFor
  apply (h.tables.loopHeader constants var container).bind
  rintro ⟨header, unknown, tables⟩ ⟨header', unknown', tables'⟩ ⟨⟨hentry, hnext⟩, htables⟩
  have hheader : (Instr.loop header 0).skeleton? = (Instr.loop header' 0).skeleton? :=
    congrArg₂ (fun entry next => some (Skeleton.loop entry next)) hentry hnext
  have hlaid := (h.flush.notes unknown unknown').emit hheader
  exact .ok ⟨htables, hlaid.skeleton, .cons .loop hlaid.blocks⟩

theorem Alike.closeLink (next : BranchKind) :
    Agree Alike (e.closeLink next) (e'.closeLink next) := by
  have hflush := h.flush
  unfold Emitter.closeLink
  generalize e.flush = k, e'.flush = k' at hflush ⊢
  obtain ⟨tables, instrs, text, blocks⟩ := k
  obtain ⟨tables', instrs', text', blocks'⟩ := k'
  have hblocks : List.Forall₂ OpenBlock.Alike blocks blocks' := hflush.blocks
  cases hblocks with
  | nil => exact .error _
  | cons hblock hrest =>
    cases hblock with
    | loop => exact .error _
    | @choice _ links links' hasElse hlinks =>
      match hasElse, links, links', hlinks with
      | true, _, _, _ => exact .error _
      | false, [], [], _ => exact .error _
      | false, last :: _, last' :: _, _ =>
        exact .ok (hflush.patch (skeleton?_setNext _) (skeleton?_setNext _) last last')

theorem Alike.otherwise : Agree Alike e.otherwise e'.otherwise := by
  unfold Emitter.otherwise
  apply (h.closeLink .otherwise).bind
  intro k k' hk
  have hlaid := hk.emit (rfl : Instr.otherwise.skeleton? = Instr.otherwise.skeleton?)
  exact .ok ⟨hlaid.tables, hlaid.skeleton, modifyHead_alike (fun _ _ => .withElse) hlaid.blocks⟩

theorem Alike.elsif (cond : List Char) :
    Agree Alike (e.elsif o cond) (e'.elsif { o with constants } cond) := by
  unfold Emitter.elsif
  apply (h.closeLink .elsif).bind
  intro k k' hk
  apply (hk.tables.headerOperand constants cond).bind
  rintro ⟨op, unknown, tables⟩ ⟨op', unknown', tables'⟩ htables
  have hheader :
      (Instr.branch false op 0 0).skeleton? = (Instr.branch false op' 0 0).skeleton? := rfl
  have hlaid := (hk.notes unknown unknown').emit hheader
  exact .ok ⟨htables, hlaid.skeleton, modifyHead_alike (fun _ _ hb => hb.addLink _ _) hlaid.blocks⟩

theorem Alike.closeIf : Agree Alike e.closeIf e'.closeIf := by
  have hflush := h.flush
  unfold Emitter.closeIf
  generalize e.flush = k, e'.flush = k' at hflush ⊢
  obtain ⟨tables, instrs, text, blocks⟩ := k
  obtain ⟨tables', instrs', text', blocks'⟩ := k'
  have hblocks : List.Forall₂ OpenBlock.Alike blocks blocks' := hflush.blocks
  cases hblocks with
  | nil => exact .error _
  | cons hblock hrest =>
    cases hblock with
    | loop => exact .error _
    | @choice _ links links' hasElse hlinks =>
      exact .ok (hflush.congr (same_closed _ _ links) (same_closed _ _ links') hrest)

theorem Alike.closeFor : Agree Alike e.closeFor e'.closeFor := by
  have hflush := h.flush
  unfold Emitter.closeFor
  generalize e.flush = k, e'.flush = k' at hflush ⊢
  obtain ⟨tables, instrs, text, blocks⟩ := k
  obtain ⟨tables', instrs', text', blocks'⟩ := k'
  have hblocks : List.Forall₂ OpenBlock.Alike blocks blocks' := hflush.blocks
  cases hblocks with
  | nil => exact .error _
  | cons hblock hrest =>
    cases hblock with
    | choice => exact .error _
    | @loop _ header header' =>
      have hend := hflush.emit (rfl : Instr.endLoop.skeleton? = Instr.endLoop.skeleton?)
      exact .ok ⟨hend.tables,
        (hend.patch (skeleton?_setStop _) (skeleton?_setStop _) header header').skeleton, hrest⟩

theorem Alike.directive (d : Directive) :
    Agree Alike (e.directive o span d) (e'.directive { o with constants } span d) := by
  match d with
  | .variable path => exact h.perform (h.tables.write constants path)
  | .openIf cond => exact h.openIf constants span cond
  | .elsif cond => exact h.elsif constants cond
  | .otherwise => exact h.otherwise
  | .closeIf => exact h.closeIf
  | .openFor var container => exact h.openFor constants span var container
  | .closeFor => exact h.closeFor
  | .set var value => exact h.perform (h.tables.set constants var value)
  | .call name args => exact h.perform (h.tables.call constants name args)
  | .exec op arg => exact h.perform (h.tables.exec constants op arg)
  | .debug value compare => exact h.perform (h.tables.debug constants value compare)

theorem Alike.addPieces (pieces : List Piece) :
    Agree Alike (e.addPieces o pieces) (e'.addPieces { o with constants } pieces) := by
  induction pieces generalizing e e' with
  | nil => exact .ok h
  | cons p rest ih =>
    cases p with
    | text cs =>
      have htext : (e.addText cs).Alike (e'.addText cs) := ⟨h.tables, h.skeleton, h.blocks⟩
      exact ih htext
    | fault f span => exact .error _
    | directive d span =>
      rw [Emitter.addPieces, Emitter.addPieces]
      generalize e.directive o span d = r, e'.directive { o with constants } span d = r',
        h.directive constants span d = hagree
      cases hagree with
      | error f => exact .error _
      | ok hk => exact ih hk

theorem Alike.finish (source : List Char) :
    Agree Alike (e.finish source) (e'.finish source) := by
  have hblocks := h.blocks
  unfold Emitter.finish
  generalize e.blocks = blocks, e'.blocks = blocks' at hblocks ⊢
  cases hblocks with
  | nil => exact .ok h.flush
  | cons hblock hrest =>
    dsimp only
    rw [hblock.kind, hblock.opened]
    exact .error _

end Markers

theorem ofSource_constants (o : CompileOptions) (constants : List (String × Value))
    (source : List Char) :
    Agree Alike (ofSource o source) (ofSource { o with constants } source) := by
  unfold ofSource
  dsimp only
  split
  · exact .error _
  · next tables _ =>
    have hstart : Alike { tables } { tables } := ⟨⟨rfl, rfl⟩, rfl, .nil⟩
    apply (hstart.addPieces constants (Piece.ofSource source)).bind
    intro k k' hk
    exact hk.finish source

end Emitter

/-- The same program but for its texts, its operands and its jumps. -/
structure Program.SameSkeleton (p p' : Program) : Prop where
  slots : p.slots = p'.slots
  paramCount : p.paramCount = p'.paramCount
  callSites : p.callSites = p'.callSites
  skeleton : p.instrs.filterMap Instr.skeleton? = p'.instrs.filterMap Instr.skeleton?

/-- Whichever constants a source is compiled against, it is refused with the same fault at the same
place, or becomes a program with the same slots, parameters and calls, whose instructions differ in
texts, variables, operands and jumps alone. -/
theorem compile_constants (name : String) (source : List Char) (o : CompileOptions)
    (constants : List (String × Value)) :
    Agree Program.SameSkeleton (compile name source o)
      (compile name source { o with constants }) := by
  unfold compile
  generalize Emitter.ofSource o source = r, Emitter.ofSource { o with constants } source = r',
    Emitter.ofSource_constants o constants source = hagree
  cases hagree with
  | error f => exact .error _
  | ok h => exact .ok ⟨h.tables.slots, rfl, h.tables.callSites, h.skeleton⟩

end TemplateEngine

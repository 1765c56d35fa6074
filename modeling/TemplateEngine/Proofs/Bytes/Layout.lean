import TemplateEngine.Proofs.Bytes.Tables
import TemplateEngine.Proofs.Nested.Layout

/-! Laying out a program with a check of every place at which a header is filled in, and of every
distance that it is filled in with. While blocks are open their headers stand among the instructions
so far, so that none of these checks fails. -/
namespace TemplateEngine

namespace Emitter

/-- Fills in how far it is from the header at `place` to `stop`. -/
def lead? (e : Emitter) (f : Nat → Instr → Instr) (stop place : Nat) : Option Emitter :=
  if place < e.instrs.size then
    (Text.distance? place stop).map fun distance => e.patch place (f distance)
  else none

def perform? (e : Emitter) (marker : Lookup Fault (List Action × Tables)) :
    Lookup Fault Emitter := do
  let (actions, tables) ← marker
  return { e.flush.emitAll actions with tables }

def openIf? (o : CompileOptions) (e : Emitter) (span : Text.Span) (cond : List Char) :
    Lookup Fault Emitter := do
  let (cond, unknown, tables) ← e.tables.headerOperand? o cond
  let e := e.flush.emitAll (notes unknown)
  return { e.emit (.branch true cond 0 0) with
    tables, blocks := .choice span [e.instrs.size] false :: e.blocks }

def closeLink? (e : Emitter) (next : BranchKind) : Lookup Fault Emitter :=
  let e := e.flush
  match e.blocks with
  | .choice _ _ true :: _ => throw (.branchAfterElse next)
  | .choice _ (last :: _) false :: _ => liftM (e.lead? Instr.setNext e.instrs.size last)
  | _ => throw (.branchOutsideIf next)

def elsif? (o : CompileOptions) (e : Emitter) (cond : List Char) : Lookup Fault Emitter := do
  let e ← e.closeLink? .elsif
  let (cond, unknown, tables) ← e.tables.headerOperand? o cond
  let e := e.emitAll (notes unknown)
  return { e.emit (.branch false cond 0 0) with
    tables, blocks := e.blocks.modifyHead (OpenBlock.addLink e.instrs.size) }

def otherwise? (e : Emitter) : Lookup Fault Emitter := do
  let e ← e.closeLink? .otherwise
  return { e.emit .otherwise with blocks := e.blocks.modifyHead OpenBlock.withElse }

/-- Leads the headers of a chain past it. -/
def leadChain? (e : Emitter) (links : List Nat) (hasElse : Bool) : Option Emitter := do
  let stop := e.instrs.size
  let last := if hasElse then none else links.head?
  let e ← last.elim (some e) (e.lead? Instr.setNext stop)
  links.foldlM (fun e => e.lead? Instr.setStop stop) e

def closeIf? (e : Emitter) : Lookup Fault Emitter :=
  let e := e.flush
  match e.blocks with
  | .choice _ links hasElse :: blocks => do
    return { ← e.leadChain? links hasElse with blocks }
  | .loop .. :: _ => throw (.mismatchedCloser .loop .cond)
  | [] => throw (.unmatchedCloser .cond)

def openFor? (o : CompileOptions) (e : Emitter) (span : Text.Span) (var container : List Char) :
    Lookup Fault Emitter := do
  let (header, unknown, tables) ← e.tables.loopHeader? o var container
  let e := e.flush.emitAll (notes unknown)
  return { e.emit (.loop header 0) with
    tables, blocks := .loop span e.instrs.size :: e.blocks }

def closeFor? (e : Emitter) : Lookup Fault Emitter :=
  let e := e.flush
  match e.blocks with
  | .loop _ header :: blocks => do
    let e := e.emit .endLoop
    let e ← e.lead? Instr.setStop e.instrs.size header
    return { e with blocks }
  | .choice .. :: _ => throw (.mismatchedCloser .cond .loop)
  | [] => throw (.unmatchedCloser .loop)

def directive? (o : CompileOptions) (e : Emitter) (span : Text.Span) :
    Directive → Lookup Fault Emitter
  | .variable path => e.perform? (e.tables.write? o path)
  | .openIf cond => e.openIf? o span cond
  | .elsif cond => e.elsif? o cond
  | .otherwise => e.otherwise?
  | .closeIf => e.closeIf?
  | .openFor var container => e.openFor? o span var container
  | .closeFor => e.closeFor?
  | .set var value => e.perform? (e.tables.set? o var value)
  | .call name args => e.perform? (e.tables.call? o name args)
  | .exec op arg => e.perform? (e.tables.exec? o op arg)
  | .debug value compare => e.perform? (e.tables.debug? o value compare)

def addPieces? (o : CompileOptions) (e : Emitter) :
    List Piece → Lookup (Fault × Text.Span) Emitter
  | [] => pure e
  | .text cs :: rest => addPieces? o (e.addText cs) rest
  | .fault f span :: _ => throw (f, span)
  | .directive d span :: rest => do
    let e ← (e.directive? o span d).adapt (·, span)
    addPieces? o e rest

end Emitter

/-- All headers of an open block stand before `place`. -/
def OpenBlock.Before (place : Nat) : OpenBlock → Prop
  | .choice _ links _ => ∀ link ∈ links, link < place
  | .loop _ header => header < place

theorem OpenBlock.Before.mono {place place' : Nat} {b : OpenBlock} (h : b.Before place)
    (hle : place ≤ place') : b.Before place' := by
  cases b with
  | choice opened links hasElse => exact fun link hlink => Nat.lt_of_lt_of_le (h link hlink) hle
  | loop opened header => exact Nat.lt_of_lt_of_le h hle

theorem OpenBlock.Before.addLink {place : Nat} {b : OpenBlock} (h : b.Before place) :
    (b.addLink place).Before (place + 1) := by
  cases b with
  | choice opened links hasElse =>
    exact List.forall_mem_cons.mpr ⟨Nat.lt_succ_self _, h.mono (Nat.le_succ _)⟩
  | loop opened header => exact h.mono (Nat.le_succ _)

theorem OpenBlock.Before.withElse {place : Nat} {b : OpenBlock} (h : b.Before place) :
    b.withElse.Before (place + 1) := by
  cases b <;> exact h.mono (Nat.le_succ _)

namespace Emitter

/-- The headers of all open blocks stand among the instructions so far. -/
def Placed (e : Emitter) : Prop :=
  ∀ b ∈ e.blocks, b.Before e.instrs.size

/-- A step of the checked layout that does what the step of the layout does. -/
inductive Agrees {ε : Type} : Lookup ε Emitter → Except ε Emitter → Prop where
  | refused (f : ε) : Agrees (throw f) (.error f)
  | accepted {e : Emitter} : e.Placed → Agrees (pure e) (.ok e)

variable {ε α : Type} {o : CompileOptions} {e e' : Emitter}

theorem Agrees.eq {x? : Lookup ε Emitter} {x : Except ε Emitter} (h : Agrees x? x) :
    x? = .total x := by
  cases h <;> rfl

theorem Agrees.bind {x : Except ε α} {f? : α → Lookup ε Emitter} {f : α → Except ε Emitter}
    (h : ∀ a, Agrees (f? a) (f a)) : Agrees (.total x >>= f?) (x >>= f) := by
  cases x with
  | error f => exact .refused f
  | ok a => exact h a

theorem Agrees.andThen {x? : Lookup ε Emitter} {x : Except ε Emitter}
    {f? : Emitter → Lookup ε Emitter} {f : Emitter → Except ε Emitter} (hx : Agrees x? x)
    (hf : ∀ e : Emitter, e.Placed → Agrees (f? e) (f e)) : Agrees (x? >>= f?) (x >>= f) := by
  cases hx with
  | refused f => exact .refused f
  | accepted h => exact hf _ h

theorem size_flush_le (e : Emitter) : e.instrs.size ≤ e.flush.instrs.size := by
  unfold flush
  split
  · exact Nat.le_refl _
  · simp only [emit, Array.size_push, Nat.le_succ]

theorem Placed.of_blocks (h : e.Placed) (hblocks : e'.blocks = e.blocks)
    (hsize : e.instrs.size ≤ e'.instrs.size) : e'.Placed := by
  intro b hb
  rw [hblocks] at hb
  exact (h b hb).mono hsize

theorem Placed.flush (h : e.Placed) : e.flush.Placed :=
  h.of_blocks (flush_blocks e) (size_flush_le e)

theorem Placed.emitAll (h : e.Placed) (actions : List Action) : (e.emitAll actions).Placed := by
  rw [emitAll_eq]
  refine h.of_blocks rfl ?_
  rw [← Array.length_toList, ← Array.length_toList, Array.toList_appendList, List.length_append]
  exact Nat.le_add_right _ _

theorem Placed.emit (h : e.Placed) (i : Instr) : (e.emit i).Placed :=
  h.of_blocks rfl (by simp [Emitter.emit])

@[simp] theorem size_patch (e : Emitter) (place : Nat) (f : Instr → Instr) :
    (e.patch place f).instrs.size = e.instrs.size :=
  Array.size_modify

theorem Placed.patch (h : e.Placed) (place : Nat) (f : Instr → Instr) : (e.patch place f).Placed :=
  h.of_blocks rfl (by simp)

/-- With the header of a new block, its place is among the instructions. -/
theorem Placed.header (h : e.Placed) {i : Instr} {tables : Tables} {b : OpenBlock}
    (hb : b.Before (e.instrs.size + 1)) :
    Placed { e.emit i with tables, blocks := b :: e.blocks } := by
  have hsize : (e.emit i).instrs.size = e.instrs.size + 1 := Array.size_push _
  intro b' hb'
  change b'.Before (e.emit i).instrs.size
  rw [hsize]
  obtain rfl | hb' := List.mem_cons.mp hb'
  · exact hb
  · exact (h b' hb').mono (Nat.le_succ _)

theorem Placed.modifyHead (h : e.Placed) {f : OpenBlock → OpenBlock}
    (hf : ∀ b : OpenBlock, b.Before e.instrs.size → (f b).Before (e.instrs.size + 1)) {i : Instr}
    {tables : Tables} : Placed { e.emit i with tables, blocks := e.blocks.modifyHead f } := by
  obtain ⟨tables', instrs, text, blocks⟩ := e
  cases blocks with
  | nil => exact List.forall_mem_nil _
  | cons b blocks =>
    obtain ⟨hb, hblocks⟩ := List.forall_mem_cons.mp h
    have houter : Placed ⟨tables', instrs, text, blocks⟩ := hblocks
    exact houter.header (hf b hb)

theorem lead?_eq {f : Nat → Instr → Instr} {stop place : Nat} (hplace : place < e.instrs.size)
    (hstop : place ≤ stop) : e.lead? f stop place = some (e.patch place (f (stop - place))) := by
  rw [lead?, if_pos hplace, Text.distance?_of_le hstop]
  rfl

theorem foldlM_lead? {f : Nat → Instr → Instr} {stop : Nat} {links : List Nat}
    (hlinks : ∀ link ∈ links, link < e.instrs.size) (hstop : e.instrs.size ≤ stop) :
    links.foldlM (fun e => e.lead? f stop) e =
      some (links.foldl (fun e link => e.patch link (f (stop - link))) e) := by
  induction links generalizing e with
  | nil => rfl
  | cons link links ih =>
    obtain ⟨hlink, hlinks⟩ := List.forall_mem_cons.mp hlinks
    rw [List.foldlM_cons, lead?_eq hlink (by omega), List.foldl_cons]
    exact ih (by simpa using hlinks) (by simpa using hstop)

theorem foldl_patch_size {f : Nat → Instr → Instr} (links : List Nat) :
    (links.foldl (fun e link => e.patch link (f link)) e).instrs.size = e.instrs.size := by
  induction links generalizing e with
  | nil => rfl
  | cons link links ih => rw [List.foldl_cons, ih, size_patch]

theorem agrees_perform (h : e.Placed) (marker : Except Fault (List Action × Tables)) :
    Agrees (e.perform? (.total marker)) (e.perform marker) :=
  .bind fun (actions, _) => .accepted (h.flush.emitAll actions)

theorem agrees_openIf (h : e.Placed) (span : Text.Span) (cond : List Char) :
    Agrees (e.openIf? o span cond) (e.openIf o span cond) := by
  rw [openIf?, openIf, Tables.headerOperand?_eq]
  refine .bind fun (_, unknown, _) => .accepted ((h.flush.emitAll (notes unknown)).header ?_)
  exact List.forall_mem_singleton.mpr (Nat.lt_succ_self _)

theorem agrees_openFor (h : e.Placed) (span : Text.Span) (var container : List Char) :
    Agrees (e.openFor? o span var container) (e.openFor o span var container) := by
  rw [openFor?, openFor, Tables.loopHeader?_eq]
  refine .bind fun (_, unknown, _) => .accepted ((h.flush.emitAll (notes unknown)).header ?_)
  exact Nat.lt_succ_self _

theorem agrees_closeLink (h : e.Placed) (next : BranchKind) :
    Agrees (e.closeLink? next) (e.closeLink next) := by
  have hflush := h.flush
  rw [closeLink?, closeLink]
  generalize e.flush = e at hflush ⊢
  obtain ⟨tables, instrs, text, blocks⟩ := e
  match blocks, hflush with
  | .choice _ _ true :: _, _ => exact .refused _
  | .choice _ (last :: _) false :: _, hflush =>
    have hlast : last < instrs.size := (List.forall_mem_cons.mp hflush).1 last List.mem_cons_self
    dsimp only
    rw [lead?_eq hlast (Nat.le_of_lt hlast)]
    exact .accepted (hflush.patch _ _)
  | .choice _ [] false :: _, _ => exact .refused _
  | .loop .. :: _, _ => exact .refused _
  | [], _ => exact .refused _

theorem agrees_elsif (h : e.Placed) (cond : List Char) :
    Agrees (e.elsif? o cond) (e.elsif o cond) := by
  refine (agrees_closeLink h .elsif).andThen fun e h => ?_
  rw [Tables.headerOperand?_eq]
  refine .bind fun (_, unknown, tables) => .accepted ?_
  exact (h.emitAll (notes unknown)).modifyHead fun _ hb => hb.addLink

theorem agrees_otherwise (h : e.Placed) : Agrees e.otherwise? e.otherwise :=
  (agrees_closeLink h .otherwise).andThen fun _ h =>
    .accepted (h.modifyHead fun _ hb => hb.withElse)

theorem leadChain?_eq {links : List Nat} (hlinks : ∀ link ∈ links, link < e.instrs.size)
    (hasElse : Bool) :
    e.leadChain? links hasElse =
      some (links.foldl (fun e' link => e'.patch link (Instr.setStop (e.instrs.size - link)))
        ((if hasElse then none else links.head?).elim e fun last =>
          e.patch last (Instr.setNext (e.instrs.size - last)))) := by
  rw [leadChain?]
  cases hlast : (if hasElse then none else links.head?) with
  | none => exact foldlM_lead? hlinks (Nat.le_refl _)
  | some last =>
    have hmem : last ∈ links := by
      cases hasElse with
      | true => cases hlast
      | false => exact List.mem_of_head? hlast
    have hlt := hlinks last hmem
    rw [Option.elim_some, lead?_eq hlt (Nat.le_of_lt hlt)]
    exact foldlM_lead? (by simpa using hlinks) (Nat.le_of_eq (size_patch _ _ _))

theorem agrees_closeIf (h : e.Placed) : Agrees e.closeIf? e.closeIf := by
  have hflush := h.flush
  rw [closeIf?, closeIf]
  generalize e.flush = e at hflush ⊢
  obtain ⟨tables, instrs, text, blocks⟩ := e
  match blocks, hflush with
  | .choice opened links hasElse :: blocks, hflush =>
    obtain ⟨hlinks, hblocks⟩ := List.forall_mem_cons.mp hflush
    have houter : Placed ⟨tables, instrs, text, blocks⟩ := hblocks
    have hchain := leadChain?_eq hlinks hasElse
    dsimp only at hchain ⊢
    rw [hchain]
    refine .accepted (houter.of_blocks rfl ?_)
    dsimp only
    rw [foldl_patch_size]
    cases (if hasElse then none else links.head?) with
    | none => exact Nat.le_refl _
    | some last =>
      rw [Option.elim_some, size_patch]
  | .loop .. :: _, _ => exact .refused _
  | [], _ => exact .refused _

theorem agrees_closeFor (h : e.Placed) : Agrees e.closeFor? e.closeFor := by
  have hflush := h.flush
  rw [closeFor?, closeFor]
  generalize e.flush = e at hflush ⊢
  obtain ⟨tables, instrs, text, blocks⟩ := e
  match blocks, hflush with
  | .loop opened header :: blocks, hflush =>
    obtain ⟨hheader, hblocks⟩ := List.forall_mem_cons.mp hflush
    have houter : Placed ⟨tables, instrs, text, blocks⟩ := hblocks
    have hsize : (instrs.push .endLoop).size = instrs.size + 1 := Array.size_push _
    have hlt : header < (instrs.push .endLoop).size := by
      rw [hsize]
      exact Nat.lt_succ_of_lt hheader
    dsimp only [emit]
    rw [lead?_eq hlt (Nat.le_of_lt hlt)]
    refine .accepted (houter.of_blocks rfl ?_)
    dsimp only
    rw [size_patch]
    exact Nat.le_trans (Nat.le_succ _) (Nat.le_of_eq hsize.symm)
  | .choice .. :: _, _ => exact .refused _
  | [], _ => exact .refused _

theorem agrees_directive (h : e.Placed) (span : Text.Span) (d : Directive) :
    Agrees (e.directive? o span d) (e.directive o span d) := by
  cases d with
  | «variable» path =>
    rw [directive?, Tables.write?_eq]
    exact agrees_perform h _
  | openIf cond => exact agrees_openIf h span cond
  | elsif cond => exact agrees_elsif h cond
  | otherwise => exact agrees_otherwise h
  | closeIf => exact agrees_closeIf h
  | openFor var container => exact agrees_openFor h span var container
  | closeFor => exact agrees_closeFor h
  | set var value =>
    rw [directive?, Tables.set?_eq]
    exact agrees_perform h _
  | call name args =>
    rw [directive?, Tables.call?_eq]
    exact agrees_perform h _
  | exec op arg =>
    rw [directive?, Tables.exec?_eq]
    exact agrees_perform h _
  | debug value compare =>
    rw [directive?, Tables.debug?_eq]
    exact agrees_perform h _

theorem agrees_addPieces (h : e.Placed) (pieces : List Piece) :
    Agrees (addPieces? o e pieces) (addPieces o e pieces) := by
  induction pieces generalizing e with
  | nil => exact .accepted h
  | cons p rest ih =>
    cases p with
    | text cs => exact ih (h.of_blocks rfl (Nat.le_refl _))
    | fault f span => exact .refused _
    | directive d span =>
      rw [addPieces?, addPieces]
      have hd := agrees_directive (o := o) h span d
      generalize e.directive? o span d = x?, e.directive o span d = x at hd
      cases hd with
      | refused f => exact .refused _
      | accepted h => exact ih h

end Emitter

end TemplateEngine

import TemplateEngine.Compile.Tables
import TemplateEngine.Marker.Piece

/-! Laying out the program of a source in one pass. The headers of blocks are written before it is
known where their blocks end; the places of those headers are kept until then, and their jumps are
filled in when the next branch or the closing marker comes. -/
namespace TemplateEngine

/-- A block that is not closed yet. The links of an `if` are the places of its headers so far, the
last one first. -/
inductive OpenBlock where
  | choice (opened : Text.Span) (links : List Nat) (hasElse : Bool)
  | loop (opened : Text.Span) (header : Nat)

namespace OpenBlock

def kind : OpenBlock → BlockKind
  | .choice .. => .cond
  | .loop .. => .loop

def opened : OpenBlock → Text.Span
  | .choice opened .. | .loop opened .. => opened

def addLink (place : Nat) : OpenBlock → OpenBlock
  | .choice opened links hasElse => .choice opened (place :: links) hasElse
  | block => block

def withElse : OpenBlock → OpenBlock
  | .choice opened links _ => .choice opened links true
  | block => block

end OpenBlock

namespace Instr

def setNext (next : Nat) : Instr → Instr
  | .branch first cond _ stop => .branch first cond next stop
  | i => i

def setStop (stop : Nat) : Instr → Instr
  | .branch first cond next _ => .branch first cond next stop
  | .loop header _ => .loop header stop
  | i => i

end Instr

/-- What has been laid out: the instructions, the text that comes after them and is not one of them
yet, and the open blocks from the inside out. -/
structure Emitter where
  tables : Tables := {}
  instrs : Array Instr := #[]
  text : List Char := []
  blocks : List OpenBlock := []

namespace Emitter

def addText (e : Emitter) (cs : List Char) : Emitter :=
  { e with text := e.text ++ cs }

def emit (e : Emitter) (i : Instr) : Emitter :=
  { e with instrs := e.instrs.push i }

/-- Makes the waiting text an instruction. -/
def flush (e : Emitter) : Emitter :=
  if e.text.isEmpty then e
  else { e.emit (.action (.literal (String.ofList e.text))) with text := [] }

def emitAll (e : Emitter) (actions : List Action) : Emitter :=
  actions.foldl (fun e a => e.emit (.action a)) e

def patch (e : Emitter) (place : Nat) (f : Instr → Instr) : Emitter :=
  { e with instrs := e.instrs.modify place f }

/-- The actions of a marker come after the text before it. -/
def perform (e : Emitter) (marker : Except Fault (List Action × Tables)) :
    Except Fault Emitter := do
  let (actions, tables) ← marker
  return { e.flush.emitAll actions with tables }

def openIf (o : CompileOptions) (e : Emitter) (span : Text.Span) (cond : List Char) :
    Except Fault Emitter := do
  let (cond, unknown, tables) ← e.tables.headerOperand o cond
  let e := e.flush.emitAll (notes unknown)
  return { e.emit (.branch true cond 0 0) with
    tables, blocks := .choice span [e.instrs.size] false :: e.blocks }

/-- Leads the last header of the innermost `if` to this place, from which its next branch follows.
-/
def closeLink (e : Emitter) (next : BranchKind) : Except Fault Emitter :=
  let e := e.flush
  match e.blocks with
  | .choice _ _ true :: _ => .error (.branchAfterElse next)
  | .choice _ (last :: _) false :: _ => .ok (e.patch last (Instr.setNext (e.instrs.size - last)))
  | _ => .error (.branchOutsideIf next)

/-- The notes of a condition stand between the branches, where only a run comes that did not take
the branches before. -/
def elsif (o : CompileOptions) (e : Emitter) (cond : List Char) : Except Fault Emitter := do
  let e ← e.closeLink .elsif
  let (cond, unknown, tables) ← e.tables.headerOperand o cond
  let e := e.emitAll (notes unknown)
  return { e.emit (.branch false cond 0 0) with
    tables, blocks := e.blocks.modifyHead (OpenBlock.addLink e.instrs.size) }

def otherwise (e : Emitter) : Except Fault Emitter := do
  let e ← e.closeLink .otherwise
  return { e.emit .otherwise with blocks := e.blocks.modifyHead OpenBlock.withElse }

/-- Without an `else` the last header leads past the chain when it does not hold. -/
def closeIf (e : Emitter) : Except Fault Emitter :=
  let e := e.flush
  let stop := e.instrs.size
  match e.blocks with
  | .choice _ links hasElse :: blocks =>
    let last := if hasElse then none else links.head?
    let e := last.elim e fun last => e.patch last (Instr.setNext (stop - last))
    .ok { links.foldl (fun e link => e.patch link (Instr.setStop (stop - link))) e with blocks }
  | .loop .. :: _ => .error (.mismatchedCloser .loop .cond)
  | [] => .error (.unmatchedCloser .cond)

def openFor (o : CompileOptions) (e : Emitter) (span : Text.Span) (var container : List Char) :
    Except Fault Emitter := do
  let (header, unknown, tables) ← e.tables.loopHeader o var container
  let e := e.flush.emitAll (notes unknown)
  return { e.emit (.loop header 0) with
    tables, blocks := .loop span e.instrs.size :: e.blocks }

def closeFor (e : Emitter) : Except Fault Emitter :=
  let e := e.flush
  match e.blocks with
  | .loop _ header :: blocks =>
    let e := e.emit .endLoop
    .ok { e.patch header (Instr.setStop (e.instrs.size - header)) with blocks }
  | .choice .. :: _ => .error (.mismatchedCloser .cond .loop)
  | [] => .error (.unmatchedCloser .loop)

def directive (o : CompileOptions) (e : Emitter) (span : Text.Span) :
    Directive → Except Fault Emitter
  | .variable path => e.perform (e.tables.write o path)
  | .openIf cond => e.openIf o span cond
  | .elsif cond => e.elsif o cond
  | .otherwise => e.otherwise
  | .closeIf => e.closeIf
  | .openFor var container => e.openFor o span var container
  | .closeFor => e.closeFor
  | .set var value => e.perform (e.tables.set o var value)
  | .call name args => e.perform (e.tables.call o name args)
  | .exec op arg => e.perform (e.tables.exec o op arg)
  | .debug value compare => e.perform (e.tables.debug o value compare)

/-- Adds the pieces of a source. A fault comes with the place of its marker. -/
def addPieces (o : CompileOptions) (e : Emitter) :
    List Piece → Except (Fault × Text.Span) Emitter
  | [] => .ok e
  | .text cs :: rest => addPieces o (e.addText cs) rest
  | .fault f span :: _ => .error (f, span)
  | .directive d span :: rest =>
    match e.directive o span d with
    | .error f => .error (f, span)
    | .ok e => addPieces o e rest

/-- The whole layout, if no block is open. The innermost open block is the one reported. -/
def finish (e : Emitter) (source : List Char) : Except (Fault × Text.Span) Emitter :=
  match e.blocks with
  | [] => .ok e.flush
  | block :: _ =>
    .error (.unclosedBlock block.kind (.ofOffset source block.opened.start), block.opened)

/-- The layout of a source, or its first fault. -/
def ofSource (o : CompileOptions) (source : List Char) : Except (Fault × Text.Span) Emitter :=
  match Tables.declareParams {} o.params with
  | .error f => .error (f, ⟨0, 0⟩)
  | .ok tables => do
    let e ← addPieces o { tables } (Piece.ofSource source)
    e.finish source

end Emitter

end TemplateEngine

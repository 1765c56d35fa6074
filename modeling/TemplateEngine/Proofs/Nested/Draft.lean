import TemplateEngine.Compile.Basic
import TemplateEngine.Proofs.Nested.Block

/-! Reading a source as nested blocks. Texts between the same two markers are one text here, and a
block is put into the block around it when its closing marker comes. -/
namespace TemplateEngine

namespace Piece

/-- Text before pieces in which no runs of text are neighbours. -/
def joinText (cs : List Char) : List Piece → List Piece
  | .text more :: rest => .text (cs ++ more) :: rest
  | rest => if cs.isEmpty then rest else .text cs :: rest

def join : List Piece → List Piece
  | [] => []
  | .text cs :: rest => joinText cs (join rest)
  | p :: rest => p :: join rest

theorem joinText_nil (pieces : List Piece) : joinText [] pieces = pieces := by
  cases pieces with
  | nil => rfl
  | cons p rest => cases p <;> rfl

theorem joinText_joinText (cs ds : List Char) (pieces : List Piece) :
    joinText cs (joinText ds pieces) = joinText (cs ++ ds) pieces := by
  have hplain : ∀ pieces, (∀ more rest, pieces ≠ .text more :: rest) →
      joinText cs (if ds.isEmpty then pieces else .text ds :: pieces) =
        if (cs ++ ds).isEmpty then pieces else .text (cs ++ ds) :: pieces := by
    intro pieces h
    cases ds with
    | nil => simp [joinText]
    | cons d ds => simp [joinText]
  cases pieces with
  | nil => exact hplain [] (by simp)
  | cons p rest =>
    cases p with
    | text more => simp [joinText]
    | directive d span => exact hplain _ (by simp)
    | fault f span => exact hplain _ (by simp)

end Piece

structure Branch where
  unknown : List String
  cond : Operand
  body : Block

/-- The chain of finished branches, which are in reverse order, with what comes after them. -/
def Chain.ofReverse (branches : List Branch) (after : Chain) : Chain :=
  branches.foldl (fun more b => .branch b.unknown b.cond b.body more) after

/-- A block that is not closed yet, seen from inside: its opening marker, the items before it in the
block around it, and its own header. All lists are in reverse order. -/
inductive Enclosure where
  | branch (opened : Text.Span) (outer : List Item) (earlier : List Branch)
      (unknown : List String) (cond : Operand)
  | otherwise (opened : Text.Span) (outer : List Item) (earlier : List Branch)
  | loop (opened : Text.Span) (outer : List Item) (header : Loop)

def Enclosure.kind : Enclosure → BlockKind
  | .branch .. | .otherwise .. => .cond
  | .loop .. => .loop

def Enclosure.opened : Enclosure → Text.Span
  | .branch opened .. | .otherwise opened .. | .loop opened .. => opened

/-- What has been built: the items of the innermost open block in reverse order, and the open blocks
from the inside out. -/
structure Builder where
  tables : Tables := {}
  items : List Item := []
  around : List Enclosure := []

structure Draft where
  body : Block
  tables : Tables

namespace Builder

def add (b : Builder) (actions : List Action) : Builder :=
  { b with items := (actions.map .action).reverse ++ b.items }

def addText (b : Builder) (cs : List Char) : Builder :=
  if cs.isEmpty then b else b.add [.literal (String.ofList cs)]

def perform (b : Builder) (marker : Except Fault (List Action × Tables)) :
    Except Fault Builder := do
  let (actions, tables) ← marker
  return { b.add actions with tables }

def openIf (o : CompileOptions) (b : Builder) (span : Text.Span) (cond : List Char) :
    Except Fault Builder := do
  let (cond, unknown, tables) ← b.tables.headerOperand o cond
  return ⟨tables, [], .branch span b.items [] unknown cond :: b.around⟩

/-- Ends a branch: the opening marker of its `if`, what came before it, the branches with this one,
and the blocks around it. -/
def endBranch (b : Builder) (next : BranchKind) :
    Except Fault (Text.Span × List Item × List Branch × List Enclosure) :=
  match b.around with
  | .branch opened outer earlier unknown cond :: around =>
    .ok (opened, outer, ⟨unknown, cond, .ofReverse b.items⟩ :: earlier, around)
  | .otherwise .. :: _ => .error (.branchAfterElse next)
  | _ => .error (.branchOutsideIf next)

def elsif (o : CompileOptions) (b : Builder) (cond : List Char) : Except Fault Builder := do
  let (opened, outer, earlier, around) ← b.endBranch .elsif
  let (cond, unknown, tables) ← b.tables.headerOperand o cond
  return ⟨tables, [], .branch opened outer earlier unknown cond :: around⟩

def otherwise (b : Builder) : Except Fault Builder := do
  let (opened, outer, earlier, around) ← b.endBranch .otherwise
  return ⟨b.tables, [], .otherwise opened outer earlier :: around⟩

def closeIf (b : Builder) : Except Fault Builder :=
  match b.around with
  | .branch _ outer earlier unknown cond :: around =>
    let c := Chain.ofReverse (⟨unknown, cond, .ofReverse b.items⟩ :: earlier) .done
    .ok ⟨b.tables, .choice c :: outer, around⟩
  | .otherwise _ outer earlier :: around =>
    let c := Chain.ofReverse earlier (.otherwise (.ofReverse b.items))
    .ok ⟨b.tables, .choice c :: outer, around⟩
  | .loop .. :: _ => .error (.mismatchedCloser .loop .cond)
  | [] => .error (.unmatchedCloser .cond)

def openFor (o : CompileOptions) (b : Builder) (span : Text.Span) (var container : List Char) :
    Except Fault Builder := do
  let (header, unknown, tables) ← b.tables.loopHeader o var container
  return ⟨tables, [], .loop span (b.add (notes unknown)).items header :: b.around⟩

def closeFor (b : Builder) : Except Fault Builder :=
  match b.around with
  | .loop _ outer header :: around =>
    .ok ⟨b.tables, .loop header (.ofReverse b.items) :: outer, around⟩
  | .branch .. :: _ | .otherwise .. :: _ => .error (.mismatchedCloser .cond .loop)
  | [] => .error (.unmatchedCloser .loop)

def directive (o : CompileOptions) (b : Builder) (span : Text.Span) :
    Directive → Except Fault Builder
  | .variable path => b.perform (b.tables.write o path)
  | .openIf cond => b.openIf o span cond
  | .elsif cond => b.elsif o cond
  | .otherwise => b.otherwise
  | .closeIf => b.closeIf
  | .openFor var container => b.openFor o span var container
  | .closeFor => b.closeFor
  | .set var value => b.perform (b.tables.set o var value)
  | .call name args => b.perform (b.tables.call o name args)
  | .exec op arg => b.perform (b.tables.exec o op arg)
  | .debug value compare => b.perform (b.tables.debug o value compare)

/-- Adds the pieces of a source. A fault comes with the place of its marker. -/
def addPieces (o : CompileOptions) (b : Builder) :
    List Piece → Except (Fault × Text.Span) Builder
  | [] => .ok b
  | .text cs :: rest => addPieces o (b.addText cs) rest
  | .fault f span :: _ => .error (f, span)
  | .directive d span :: rest =>
    match b.directive o span d with
    | .error f => .error (f, span)
    | .ok b => addPieces o b rest

/-- The whole program, if no block is open. The innermost open block is the one reported. -/
def finish (b : Builder) (source : List Char) : Except (Fault × Text.Span) Draft :=
  match b.around with
  | [] => .ok { body := .ofReverse b.items, tables := b.tables }
  | e :: _ => .error (.unclosedBlock e.kind (.ofOffset source e.opened.start), e.opened)

end Builder

def draft (o : CompileOptions) (source : List Char) : Except (Fault × Text.Span) Draft :=
  match Tables.declareParams {} o.params with
  | .error f => .error (f, ⟨0, 0⟩)
  | .ok tables => do
    let b ← Builder.addPieces o { tables } (Piece.join (Piece.ofSource source))
    b.finish source

def Draft.program (d : Draft) (name : String) (o : CompileOptions) : Program where
  name
  paramCount := o.params.length
  instrs := d.body.flatten
  arena := d.tables.arena
  slots := d.tables.slots
  callSites := d.tables.callSites
  registry := o.registry
  operations := o.operations

end TemplateEngine

import TemplateEngine.Proofs.Nested.Draft

/-! The one pass over a source lays out what nested building gives. While blocks are open, the flat
program is that of the finished items with headers in between whose jumps are not known yet; each
marker takes the layout of one stage of the building to that of the next. -/
namespace TemplateEngine

/-- A finished branch whose chain is still open: its header leads to the next branch, but not yet
past the chain. -/
def Branch.pending (first : Bool) (b : Branch) : List Instr :=
  noteInstrs b.unknown ++
    .branch first b.cond (b.body.flatten.length + 1) 0 :: b.body.flatten

def pendingLinks : List Branch → List Instr
  | [] => []
  | b :: earlier => pendingLinks earlier ++ b.pending earlier.isEmpty

/-- The places of the headers of branches that start at `start`, the last one first. -/
def linkPlaces (start : Nat) : List Branch → List Nat
  | [] => []
  | b :: earlier =>
    (start + (pendingLinks earlier).length + b.unknown.length) :: linkPlaces start earlier

namespace Enclosure

def outer : Enclosure → List Item
  | .branch _ outer .. | .otherwise _ outer _ | .loop _ outer _ => outer

/-- The instructions of an open block up to the place where its innermost part begins. -/
def header : Enclosure → List Instr
  | .branch _ _ earlier unknown cond =>
    pendingLinks earlier ++ noteInstrs unknown ++ [.branch earlier.isEmpty cond 0 0]
  | .otherwise _ _ earlier => pendingLinks earlier ++ [.otherwise]
  | .loop _ _ header => [.loop header 0]

def mark (start : Nat) : Enclosure → OpenBlock
  | .branch opened _ earlier unknown _ =>
    .choice opened
      ((start + (pendingLinks earlier).length + unknown.length) :: linkPlaces start earlier) false
  | .otherwise opened _ earlier => .choice opened (linkPlaces start earlier) true
  | .loop opened _ _ => .loop opened start

end Enclosure

def flattenItems (items : List Item) : List Instr :=
  (Block.ofReverse items).flatten

@[simp] theorem flatten_ofReverse_eq (items : List Item) :
    (Block.ofReverse items).flatten = flattenItems items := rfl

@[simp] theorem flattenItems_nil : flattenItems [] = [] := rfl

@[simp] theorem flattenItems_cons (i : Item) (items : List Item) :
    flattenItems (i :: items) = flattenItems items ++ i.flatten := by
  simp only [flattenItems, Block.flatten_ofReverse, List.reverse_cons, List.flatMap_append,
    List.flatMap_cons, List.flatMap_nil, List.append_nil]

private theorem modify_append_cons {α : Type} (before after : List α) (a : α) (f : α → α) :
    (before ++ a :: after).modify before.length f = before ++ f a :: after := by
  induction before with
  | nil => rfl
  | cons x before ih => rw [List.cons_append, List.length_cons, List.modify_succ_cons, ih]; rfl

/-- Filling in where a chain ends, header by header, gives the flat form of the whole chain. -/
theorem setStop_pendingLinks (before : List Instr) (branches : List Branch) (after : Chain)
    {stop : Nat}
    (hstop : stop = before.length + (pendingLinks branches).length +
      (after.flatten branches.isEmpty).length) :
    (linkPlaces before.length branches).foldl
        (fun is link => is.modify link (Instr.setStop (stop - link)))
        (before ++ pendingLinks branches ++ after.flatten branches.isEmpty) =
      before ++ (Chain.ofReverse branches after).flatten true := by
  induction branches generalizing after with
  | nil => simp [linkPlaces, pendingLinks, Chain.ofReverse]
  | cons b earlier ih =>
    -- The last branch becomes the first part of what comes after the branches before it.
    let more := Chain.branch b.unknown b.cond b.body after
    have hfilled :
        (before ++ pendingLinks (b :: earlier) ++ after.flatten false).modify
            (before.length + (pendingLinks earlier).length + b.unknown.length)
            (Instr.setStop
              (stop - (before.length + (pendingLinks earlier).length + b.unknown.length))) =
          before ++ pendingLinks earlier ++ more.flatten earlier.isEmpty := by
      have hplace : before.length + (pendingLinks earlier).length + b.unknown.length =
          (before ++ pendingLinks earlier ++ noteInstrs b.unknown).length := by simp [Nat.add_assoc]
      have hjump : stop - (before ++ pendingLinks earlier ++ noteInstrs b.unknown).length =
          b.body.flatten.length + 1 + (after.flatten false).length := by
        rw [hstop]
        simp [pendingLinks, Branch.pending]
        omega
      have hsplit : before ++ pendingLinks (b :: earlier) ++ after.flatten false =
          before ++ pendingLinks earlier ++ noteInstrs b.unknown ++
            .branch earlier.isEmpty b.cond (b.body.flatten.length + 1) 0 ::
              (b.body.flatten ++ after.flatten false) := by
        simp [pendingLinks, Branch.pending]
      rw [hplace, hjump, hsplit, modify_append_cons]
      simp [more, Chain.flatten, Instr.setStop]
    rw [linkPlaces, List.foldl_cons]
    simp only [List.isEmpty_cons] at hstop ⊢
    rw [hfilled, ih more]
    · rfl
    · rw [hstop]
      simp [more, pendingLinks, Branch.pending, Chain.flatten]
      omega

def flattenAround : List Enclosure → List Instr
  | [] => []
  | e :: around => flattenAround around ++ flattenItems e.outer ++ e.header

def marks : List Enclosure → List OpenBlock
  | [] => []
  | e :: around =>
    e.mark (flattenAround around ++ flattenItems e.outer).length :: marks around

def Builder.layout (b : Builder) : Emitter where
  tables := b.tables
  instrs := (flattenAround b.around ++ flattenItems b.items).toArray
  blocks := marks b.around

def Draft.layout (d : Draft) : Emitter where
  tables := d.tables
  instrs := d.body.flatten.toArray

namespace Builder

/-- Text before a piece that is not text is added before that piece. -/
theorem addPieces_joinText (o : CompileOptions) (b : Builder) (cs : List Char)
    {pieces : List Piece} (h : ∀ ds rest, pieces ≠ .text ds :: rest) :
    b.addPieces o (Piece.joinText cs pieces) = (b.addText cs).addPieces o pieces := by
  have hjoin : Piece.joinText cs pieces =
      if cs.isEmpty then pieces else .text cs :: pieces := by
    cases pieces with
    | nil => rfl
    | cons p rest =>
      cases p with
      | text ds => exact absurd rfl (h ds rest)
      | directive d span => rfl
      | fault f span => rfl
  rw [hjoin]
  by_cases hcs : cs.isEmpty
  · simp only [hcs, if_true, addText]
  · simp only [hcs, Bool.false_eq_true, if_false, addPieces]

@[simp] theorem layout_tables (b : Builder) : b.layout.tables = b.tables := rfl

@[simp] theorem layout_blocks (b : Builder) : b.layout.blocks = marks b.around := rfl

theorem flattenItems_add (b : Builder) (actions : List Action) :
    flattenItems (b.add actions).items = flattenItems b.items ++ actions.map .action := by
  induction actions generalizing b with
  | nil => simp [add]
  | cons a actions ih =>
    have h := ih { b with items := .action a :: b.items }
    simp only [add, List.map_cons, List.reverse_cons, List.append_assoc, List.singleton_append,
      flattenItems_cons, Item.flatten] at h ⊢
    exact h

theorem isEmpty_of_endBranch {b : Builder} {next : BranchKind} {opened : Text.Span}
    {outer : List Item} {branches : List Branch} {around : List Enclosure}
    (h : b.endBranch next = .ok (opened, outer, branches, around)) : branches.isEmpty = false := by
  unfold endBranch at h
  split at h
  · cases h
    rfl
  · cases h
  · cases h

end Builder

namespace Emitter

theorem eq_layout {e : Emitter} {b : Builder} (htables : e.tables = b.tables)
    (hinstrs : e.instrs.toList = flattenAround b.around ++ flattenItems b.items)
    (htext : e.text = []) (hblocks : e.blocks = marks b.around) : e = b.layout := by
  obtain ⟨tables, ⟨instrs⟩, text, blocks⟩ := e
  subst htables hinstrs htext hblocks
  rfl

theorem patch_instrs {e : Emitter} (before after : List Instr) (i : Instr)
    (he : e.instrs.toList = before ++ i :: after) {place : Nat} (hplace : place = before.length)
    (f : Instr → Instr) : (e.patch place f).instrs.toList = before ++ f i :: after := by
  rw [patch, Array.toList_modify, he, hplace, modify_append_cons]

@[simp] theorem flush_tables (e : Emitter) : e.flush.tables = e.tables := by
  unfold flush
  split <;> rfl

@[simp] theorem flush_blocks (e : Emitter) : e.flush.blocks = e.blocks := by
  unfold flush
  split <;> rfl

theorem emitAll_eq (e : Emitter) (actions : List Action) :
    e.emitAll actions = { e with instrs := e.instrs ++ actions.map Instr.action } := by
  induction actions generalizing e with
  | nil => rfl
  | cons a actions ih =>
    rw [emitAll, List.foldl_cons, ← emitAll, ih]
    simp [emit]

theorem emitAll_layout (b : Builder) (actions : List Action) :
    b.layout.emitAll actions = (b.add actions).layout := by
  rw [emitAll_eq]
  apply eq_layout
  · rfl
  · rw [Builder.flattenItems_add]
    simp [Builder.layout, Builder.add]
  · rfl
  · rfl

/-- Waiting text is laid out as a literal when the next marker comes. -/
theorem flush_layout (b : Builder) (cs : List Char) :
    ({ b.layout with text := cs } : Emitter).flush = (b.addText cs).layout := by
  unfold flush Builder.addText
  by_cases hcs : cs.isEmpty
  · simp only [hcs, if_true]
    rw [List.isEmpty_iff.mp hcs]
    rfl
  · simp only [hcs, Bool.false_eq_true, if_false]
    rw [← emitAll_layout]
    rfl

/-- The flat form of an open `if` whose last branch is finished. -/
def chainLayout (tables : Tables) (opened : Text.Span) (outer : List Item)
    (branches : List Branch) (around : List Enclosure) : Emitter where
  tables
  instrs := (flattenAround around ++ flattenItems outer ++ pendingLinks branches).toArray
  blocks := .choice opened
    (linkPlaces (flattenAround around ++ flattenItems outer).length branches) false :: marks around

/-- Where a branch ends, its header is led to what comes after it. -/
theorem patch_lastLink (tables : Tables) (items outer : List Item) (opened : Text.Span)
    (earlier : List Branch) (unknown : List String) (cond : Operand) (around : List Enclosure)
    {e : Emitter} {last : Nat}
    (he : e =
      (Builder.mk tables items (.branch opened outer earlier unknown cond :: around)).layout)
    (hlast : last = (flattenAround around ++ flattenItems outer).length +
      (pendingLinks earlier).length + unknown.length) :
    e.patch last (Instr.setNext (e.instrs.size - last)) =
      chainLayout tables opened outer (⟨unknown, cond, .ofReverse items⟩ :: earlier) around := by
  let before := flattenAround around ++ flattenItems outer ++ pendingLinks earlier ++
    noteInstrs unknown
  have hinstrs : e.instrs.toList =
      before ++ .branch earlier.isEmpty cond 0 0 :: flattenItems items := by
    simp [he, before, Builder.layout, flattenAround, Enclosure.outer, Enclosure.header]
  have hsize : e.instrs.size - last = (flattenItems items).length + 1 := by
    rw [← Array.length_toList, hinstrs]
    simp [before, hlast]
    omega
  have hplace : last = before.length := by simp [before, hlast, Nat.add_assoc]
  have hpatched := patch_instrs _ _ _ hinstrs hplace (Instr.setNext (e.instrs.size - last))
  rw [hsize] at hpatched ⊢
  subst he
  simp only [patch, chainLayout, Builder.layout] at hpatched ⊢
  congr 1
  · apply Array.toList_inj.mp
    rw [hpatched]
    simp [before, pendingLinks, Branch.pending, Instr.setNext]

private theorem foldl_patch (f : Nat → Instr → Instr) (links : List Nat) (e : Emitter) :
    links.foldl (fun e link => e.patch link (f link)) e =
      { e with
        instrs :=
          (links.foldl (fun is link => is.modify link (f link)) e.instrs.toList).toArray } := by
  induction links generalizing e with
  | nil => rfl
  | cons link links ih =>
    rw [List.foldl_cons, ih]
    simp [patch]

/-- Where a chain ends, all its headers are led past it. -/
theorem patch_allLinks {e : Emitter} (before : List Instr) (branches : List Branch) (after : Chain)
    (he : e.instrs.toList =
      before ++ pendingLinks branches ++ after.flatten branches.isEmpty) (blocks : List OpenBlock) :
    { (linkPlaces before.length branches).foldl
        (fun e' link => e'.patch link (Instr.setStop (e.instrs.size - link))) e with blocks } =
      { e with
        instrs := (before ++ (Chain.ofReverse branches after).flatten true).toArray, blocks } := by
  have hstop : e.instrs.size = before.length + (pendingLinks branches).length +
      (after.flatten branches.isEmpty).length := by
    rw [← Array.length_toList, he]
    simp [Nat.add_assoc]
  rw [foldl_patch fun link => Instr.setStop (e.instrs.size - link), he,
    setStop_pendingLinks before branches after hstop]

section Markers

variable {e : Emitter} {b : Builder} (h : e.flush = b.layout)
include h

theorem tables_of_layout : e.tables = b.tables := by
  rw [← flush_tables, h, Builder.layout_tables]

theorem blocks_of_layout : e.blocks = marks b.around := by
  rw [← flush_blocks, h, Builder.layout_blocks]

theorem perform_layout (m : Except Fault (List Action × Tables)) :
    e.perform m = (b.perform m).map Builder.layout := by
  cases m with
  | error f => rfl
  | ok r =>
    show Except.ok _ = Except.ok _
    rw [h, emitAll_layout]
    rfl

theorem openIf_layout (o : CompileOptions) (span : Text.Span) (cond : List Char) :
    e.openIf o span cond = (b.openIf o span cond).map Builder.layout := by
  unfold openIf Builder.openIf
  rw [tables_of_layout h, h]
  cases b.tables.headerOperand o cond with
  | error f => rfl
  | ok r =>
    obtain ⟨cond, unknown, tables⟩ := r
    apply congrArg Except.ok
    dsimp only
    rw [emitAll_eq]
    apply eq_layout <;>
      simp [Builder.layout, emit, marks, flattenAround, Enclosure.mark, Enclosure.outer,
        Enclosure.header, pendingLinks, linkPlaces, noteInstrs, notes, Nat.add_assoc]

theorem openFor_layout (o : CompileOptions) (span : Text.Span) (var container : List Char) :
    e.openFor o span var container = (b.openFor o span var container).map Builder.layout := by
  unfold openFor Builder.openFor
  rw [tables_of_layout h, h]
  cases b.tables.loopHeader o var container with
  | error f => rfl
  | ok r =>
    obtain ⟨header, unknown, tables⟩ := r
    apply congrArg Except.ok
    dsimp only
    rw [emitAll_layout]
    apply eq_layout <;>
      simp [Builder.layout, emit, marks, flattenAround, Enclosure.mark, Enclosure.outer,
        Enclosure.header, Builder.add]

theorem closeFor_layout : e.closeFor = b.closeFor.map Builder.layout := by
  obtain ⟨tables, items, around⟩ := b
  unfold closeFor Builder.closeFor
  rw [h]
  match around with
  | [] => rfl
  | .branch .. :: _ => rfl
  | .otherwise .. :: _ => rfl
  | .loop opened outer header :: around =>
    apply congrArg Except.ok
    apply eq_layout
    · rfl
    · let before := flattenAround around ++ flattenItems outer
      -- The block's header stands where the block was opened.
      refine Eq.trans
        (patch_instrs before (flattenItems items ++ [.endLoop]) (.loop header 0) ?_ rfl _) ?_
      · simp [before, emit, Builder.layout, flattenAround, Enclosure.outer, Enclosure.header]
      · simp [before, emit, Builder.layout, flattenAround, Enclosure.outer, Enclosure.header,
          Instr.setStop, Item.flatten]
        omega
    · rfl
    · rfl

theorem closeLink_layout (next : BranchKind) :
    e.closeLink next = (b.endBranch next).map fun (opened, outer, branches, around) =>
      chainLayout b.tables opened outer branches around := by
  obtain ⟨tables, items, around⟩ := b
  unfold closeLink Builder.endBranch
  rw [h]
  match around with
  | [] => rfl
  | .otherwise _ _ earlier :: _ => rfl
  | .loop .. :: _ => rfl
  | .branch opened outer earlier unknown cond :: around =>
    apply congrArg Except.ok
    exact patch_lastLink tables items outer opened earlier unknown cond around rfl rfl

theorem otherwise_layout : e.otherwise = b.otherwise.map Builder.layout := by
  unfold otherwise Builder.otherwise
  rw [closeLink_layout h]
  cases b.endBranch .otherwise with
  | error f => rfl
  | ok r =>
    obtain ⟨opened, outer, branches, around⟩ := r
    apply congrArg Except.ok
    apply eq_layout <;>
      simp [chainLayout, emit, marks, flattenAround, Enclosure.mark, Enclosure.outer,
        Enclosure.header, OpenBlock.withElse]

theorem elsif_layout (o : CompileOptions) (cond : List Char) :
    e.elsif o cond = (b.elsif o cond).map Builder.layout := by
  unfold elsif Builder.elsif
  rw [closeLink_layout h]
  cases hend : b.endBranch .elsif with
  | error f => rfl
  | ok r =>
    obtain ⟨opened, outer, branches, around⟩ := r
    have hnot := Builder.isEmpty_of_endBranch hend
    show (do
      let r ← b.tables.headerOperand o cond
      let e := (chainLayout b.tables opened outer branches around).emitAll (notes r.2.1)
      return { e.emit (.branch false r.1 0 0) with
        tables := r.2.2, blocks := e.blocks.modifyHead (OpenBlock.addLink e.instrs.size) }) = _
    cases hcond : b.tables.headerOperand o cond with
    | error f => simp only [bind, Except.bind, Except.map]
    | ok r =>
      obtain ⟨cond', unknown, tables⟩ := r
      simp only [bind, Except.bind, Except.map]
      apply congrArg Except.ok
      rw [emitAll_eq]
      apply eq_layout <;>
        simp [chainLayout, emit, marks, flattenAround, Enclosure.mark, Enclosure.outer,
          Enclosure.header, OpenBlock.addLink, noteInstrs, notes, hnot, Nat.add_assoc]

theorem closeIf_layout : e.closeIf = b.closeIf.map Builder.layout := by
  obtain ⟨tables, items, around⟩ := b
  unfold closeIf Builder.closeIf
  rw [h]
  match around with
  | [] => rfl
  | .loop .. :: _ => rfl
  | .otherwise opened outer earlier :: around =>
    apply congrArg Except.ok
    refine (patch_allLinks (flattenAround around ++ flattenItems outer) earlier
      (.otherwise (.ofReverse items)) ?_ _).trans ?_
    · simp [Builder.layout, flattenAround, Enclosure.outer, Enclosure.header, Chain.flatten]
    · simp [Builder.layout, Item.flatten]
  | .branch opened outer earlier unknown cond :: around =>
    apply congrArg Except.ok
    let branches := Branch.mk unknown cond (.ofReverse items) :: earlier
    have hlast := patch_lastLink tables items outer opened earlier unknown cond around rfl rfl
    -- Filling in a header leaves the end of the chain where it is.
    have hsize := congrArg (fun e : Emitter => e.instrs.size) hlast
    simp only [patch, Array.size_modify] at hsize
    simp only [Bool.false_eq_true, if_false, List.head?_cons, Option.elim_some, Enclosure.outer]
    rw [hlast, hsize]
    refine Eq.trans
      (patch_allLinks (flattenAround around ++ flattenItems outer) branches .done ?_ _) ?_
    · simp [branches, chainLayout, Chain.flatten]
    · simp [branches, chainLayout, Builder.layout, Item.flatten]

theorem directive_layout (o : CompileOptions) (span : Text.Span) (d : Directive) :
    e.directive o span d = (b.directive o span d).map Builder.layout := by
  unfold directive Builder.directive
  rw [tables_of_layout h]
  match d with
  | .variable path => exact perform_layout h _
  | .openIf cond => exact openIf_layout h o span cond
  | .elsif cond => exact elsif_layout h o cond
  | .otherwise => exact otherwise_layout h
  | .closeIf => exact closeIf_layout h
  | .openFor var container => exact openFor_layout h o span var container
  | .closeFor => exact closeFor_layout h
  | .set var value => exact perform_layout h _
  | .call name args => exact perform_layout h _
  | .exec op arg => exact perform_layout h _
  | .debug value compare => exact perform_layout h _

theorem finish_layout (source : List Char) :
    e.finish source = (b.finish source).map Draft.layout := by
  obtain ⟨tables, items, around⟩ := b
  unfold finish Builder.finish
  rw [blocks_of_layout h, h]
  match around with
  | [] =>
    apply congrArg Except.ok
    simp [Builder.layout, Draft.layout, flattenAround, marks]
  | .branch .. :: _ => rfl
  | .otherwise .. :: _ => rfl
  | .loop .. :: _ => rfl

end Markers

theorem addPieces_layout (o : CompileOptions) (pieces : List Piece) (b : Builder) (cs : List Char) :
    (({ b.layout with text := cs } : Emitter).addPieces o pieces).map flush =
      (b.addPieces o (Piece.joinText cs (Piece.join pieces))).map Builder.layout := by
  induction pieces generalizing b cs with
  | nil =>
    rw [Piece.join, Builder.addPieces_joinText o b cs (by simp)]
    exact congrArg Except.ok (flush_layout b cs)
  | cons p rest ih =>
    cases p with
    | text ds =>
      rw [Piece.join, Piece.joinText_joinText, ← ih]
      rfl
    | fault f span =>
      rw [Piece.join, Builder.addPieces_joinText o b cs (by simp)]
      · rfl
      · simp
    | directive d span =>
      rw [Piece.join, Builder.addPieces_joinText o b cs (by simp), addPieces,
        directive_layout (flush_layout b cs), Builder.addPieces]
      · cases (b.addText cs).directive o span d with
        | error f => rfl
        | ok b' => exact (ih b' []).trans (by rw [Piece.joinText_nil])
      · simp

/-- The one pass gives the flat form of the nested program, and has the same first fault. -/
theorem ofSource_eq (o : CompileOptions) (source : List Char) :
    ofSource o source = (draft o source).map Draft.layout := by
  unfold ofSource draft
  cases Tables.declareParams {} o.params with
  | error f => rfl
  | ok tables =>
    have h := addPieces_layout o (Piece.ofSource source) { tables } []
    rw [Piece.joinText_nil] at h
    change ((({ tables } : Emitter).addPieces o _).map flush) = _ at h
    show (({ tables } : Emitter).addPieces o _ >>= fun e => e.finish source) = _
    cases he : ({ tables } : Emitter).addPieces o (Piece.ofSource source) with
    | error f =>
      rw [he] at h
      cases hb : Builder.addPieces o { tables } (Piece.join (Piece.ofSource source)) with
      | error f' =>
        rw [hb] at h
        cases h
        simp only [hb]
        rfl
      | ok b => rw [hb] at h; cases h
    | ok e =>
      rw [he] at h
      cases hb : Builder.addPieces o { tables } (Piece.join (Piece.ofSource source)) with
      | error f' => rw [hb] at h; cases h
      | ok b =>
        rw [hb] at h
        simp only [hb]
        exact finish_layout (Except.ok.inj h) source

end Emitter

/-- A program compiled in one pass is the flat form of the nested one. -/
theorem compile_eq (name : String) (source : List Char) (o : CompileOptions) :
    compile name source o =
      match draft o source with
      | .error (f, span) => .error (.ofSpan name source span f)
      | .ok d => .ok (d.program name o) := by
  rw [compile, Emitter.ofSource_eq]
  cases draft o source with
  | error f => rfl
  | ok d => rfl

theorem compile_eq_ok_iff {name : String} {source : List Char} {o : CompileOptions} {p : Program} :
    compile name source o = .ok p ↔ ∃ d, draft o source = .ok d ∧ p = d.program name o := by
  rw [compile_eq]
  cases draft o source with
  | error f => simp
  | ok d => simp [eq_comm]

end TemplateEngine

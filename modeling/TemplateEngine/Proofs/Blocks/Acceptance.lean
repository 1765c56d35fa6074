import TemplateEngine.Proofs.Blocks.Grammar
import TemplateEngine.Proofs.Lockstep.Basic
import TemplateEngine.Proofs.Nested.Views

/-! Compiling accepts exactly the sources whose blocks are complete, if nothing else is wrong with
their markers, and finds the first misplaced marker in the others. -/
namespace TemplateEngine

/-- What a marker says on its own, whatever block it stands in. -/
def Directive.check (o : CompileOptions) (t : Tables) : Directive → Except Fault Tables
  | .variable path => (t.write o path).map (·.2)
  | .openIf cond | .elsif cond => (t.headerOperand o cond).map (·.2.2)
  | .openFor var container => (t.loopHeader o var container).map (·.2.2)
  | .otherwise | .closeIf | .closeFor => .ok t
  | .set var value => (t.set o var value).map (·.2)
  | .call name args => (t.call o name args).map (·.2)
  | .exec op arg => (t.exec o op arg).map (·.2)
  | .debug value compare => (t.debug o value compare).map (·.2)

def Piece.check (o : CompileOptions) (t : Tables) : List Piece → Except Fault Tables
  | [] => .ok t
  | .text _ :: rest => check o t rest
  | .fault f _ :: _ => .error f
  | .directive d _ :: rest => do
    let t ← d.check o t
    check o t rest

/-- Each marker is valid on its own, where the names that the markers before it declare are known.
-/
def MarkersValid (o : CompileOptions) (source : List Char) : Prop :=
  ((Tables.declareParams {} o.params).bind fun t => Piece.check o t (Piece.ofSource source)).isOk

/-- How an open block is seen from outside. -/
inductive OpenBlock.Shows : Opened → OpenBlock → Prop where
  | choice {opened : Text.Span} {last : Nat} {earlier : List Nat} {hasElse : Bool} :
    Shows ⟨.cond, opened, hasElse⟩ (.choice opened (last :: earlier) hasElse)
  | loop {opened : Text.Span} {header : Nat} : Shows ⟨.loop, opened, false⟩ (.loop opened header)

namespace Emitter

structure Stands (e : Emitter) (tables : Tables) (blocks : List Opened) : Prop where
  tables : e.tables = tables
  blocks : List.Forall₂ OpenBlock.Shows blocks e.blocks

/-- A marker is refused with this fault, or the layout goes on with these tables and blocks. -/
inductive Answers (tables : Tables) (blocks : List Opened) :
    Option Fault → Except Fault Emitter → Prop where
  | refused (f : Fault) : Answers tables blocks (some f) (.error f)
  | accepted {e : Emitter} : e.Stands tables blocks → Answers tables blocks none (.ok e)

variable {o : CompileOptions} {e : Emitter} {tables tables' : Tables} {blocks : List Opened}
  {span : Text.Span}

theorem Stands.flush (h : e.Stands tables blocks) : e.flush.Stands tables blocks where
  tables := by rw [flush_tables, h.tables]
  blocks := by rw [flush_blocks]; exact h.blocks

theorem Stands.emitAll (h : e.Stands tables blocks) (actions : List Action) :
    (e.emitAll actions).Stands tables blocks := by
  rw [emitAll_eq]
  exact ⟨h.tables, h.blocks⟩

theorem answers_perform (h : e.Stands tables blocks) {marker : Except Fault (List Action × Tables)}
    (hcheck : marker.map (·.2) = .ok tables') :
    Answers tables' blocks none (e.perform marker) := by
  obtain ⟨⟨actions, _⟩, rfl, rfl⟩ := map_eq_ok hcheck
  exact .accepted ⟨rfl, (h.flush.emitAll actions).blocks⟩

theorem answers_openIf (h : e.Stands tables blocks) {cond : List Char}
    (hcheck : (tables.headerOperand o cond).map (·.2.2) = .ok tables') :
    Answers tables' (⟨.cond, span, false⟩ :: blocks) none (e.openIf o span cond) := by
  obtain ⟨⟨op, unknown, _⟩, hop, rfl⟩ := map_eq_ok hcheck
  rw [openIf, h.tables, hop]
  exact .accepted ⟨rfl, .cons .choice (h.flush.emitAll _).blocks⟩

theorem answers_openFor (h : e.Stands tables blocks) {var container : List Char}
    (hcheck : (tables.loopHeader o var container).map (·.2.2) = .ok tables') :
    Answers tables' (⟨.loop, span, false⟩ :: blocks) none (e.openFor o span var container) := by
  obtain ⟨⟨header, unknown, _⟩, hheader, rfl⟩ := map_eq_ok hcheck
  rw [openFor, h.tables, hheader]
  exact .accepted ⟨rfl, .cons .loop (h.flush.emitAll _).blocks⟩

theorem answers_closeLink (h : e.Stands tables blocks) (branch : BranchKind) :
    Answers tables blocks (misplacedBranch? branch blocks) (e.closeLink branch) := by
  have hflush := h.flush
  rw [closeLink]
  generalize e.flush = e at hflush ⊢
  obtain ⟨tables, instrs, text, open'⟩ := e
  obtain ⟨htables, hblocks⟩ := hflush
  cases hblocks with
  | nil => exact .refused _
  | @cons block _ rest _ hblock hrest =>
    cases hblock with
    | @choice _ _ _ hasElse =>
      cases hasElse with
      | true => exact .refused _
      | false => exact .accepted ⟨htables, .cons .choice hrest⟩
    | loop => exact .refused _

theorem answers_otherwise (h : e.Stands tables blocks) :
    Answers tables (openAfter blocks span .otherwise) (misplacedBranch? .otherwise blocks)
      e.otherwise := by
  have hlink := answers_closeLink h .otherwise
  rw [otherwise]
  generalize hplace : misplacedBranch? .otherwise blocks = place, e.closeLink .otherwise = r
    at hlink ⊢
  cases hlink with
  | refused f => exact .refused f
  | @accepted e' h' =>
    obtain ⟨opened, rest, rfl⟩ := cond_of_misplacedBranch? hplace
    obtain ⟨tables, instrs, text, open'⟩ := e'
    obtain ⟨htables, hblocks⟩ := h'
    cases hblocks with
    | cons hblock hrest =>
      cases hblock with
      | choice => exact .accepted ⟨htables, .cons .choice hrest⟩

theorem shows_addLink {opened : Text.Span} {rest : List Opened} {open' : List OpenBlock}
    (h : List.Forall₂ OpenBlock.Shows (⟨.cond, opened, false⟩ :: rest) open') (place : Nat) :
    List.Forall₂ OpenBlock.Shows (⟨.cond, opened, false⟩ :: rest)
      (open'.modifyHead (OpenBlock.addLink place)) := by
  cases h with
  | cons hblock hrest =>
    cases hblock with
    | choice => exact .cons .choice hrest

theorem answers_elsif (h : e.Stands tables blocks) {cond : List Char}
    (hcheck : (tables.headerOperand o cond).map (·.2.2) = .ok tables') :
    Answers tables' (openAfter blocks span (.elsif cond)) (misplacedBranch? .elsif blocks)
      (e.elsif o cond) := by
  have hlink := answers_closeLink h .elsif
  rw [elsif]
  generalize hplace : misplacedBranch? .elsif blocks = place, e.closeLink .elsif = r at hlink ⊢
  cases hlink with
  | refused f => exact .refused f
  | @accepted e' h' =>
    obtain ⟨opened, rest, rfl⟩ := cond_of_misplacedBranch? hplace
    obtain ⟨⟨op, unknown, _⟩, hop, rfl⟩ := map_eq_ok hcheck
    change Answers _ _ _ (e'.tables.headerOperand o cond >>= _)
    rw [h'.tables, hop]
    exact .accepted ⟨rfl, shows_addLink (h'.emitAll (notes unknown)).blocks _⟩

theorem answers_closeIf (h : e.Stands tables blocks) :
    Answers tables blocks.tail (misplacedCloser? .cond blocks) e.closeIf := by
  have hflush := h.flush
  rw [closeIf]
  generalize e.flush = e at hflush ⊢
  obtain ⟨tables, instrs, text, open'⟩ := e
  obtain ⟨htables, hblocks⟩ := hflush
  cases hblocks with
  | nil => exact .refused _
  | cons hblock hrest =>
    cases hblock with
    | loop => exact .refused _
    | choice =>
      refine .accepted ⟨?_, hrest⟩
      refine (tables_foldl_patch _ _ _).trans ?_
      split <;> exact htables

theorem answers_closeFor (h : e.Stands tables blocks) :
    Answers tables blocks.tail (misplacedCloser? .loop blocks) e.closeFor := by
  have hflush := h.flush
  rw [closeFor]
  generalize e.flush = e at hflush ⊢
  obtain ⟨tables, instrs, text, open'⟩ := e
  obtain ⟨htables, hblocks⟩ := hflush
  cases hblocks with
  | nil => exact .refused _
  | cons hblock hrest =>
    cases hblock with
    | choice => exact .refused _
    | loop => exact .accepted ⟨htables, hrest⟩

theorem answers_directive (span : Text.Span) (h : e.Stands tables blocks) {d : Directive}
    (hcheck : d.check o tables = .ok tables') :
    Answers tables' (openAfter blocks span d) (misplaced? blocks d) (e.directive o span d) := by
  have hsame : tables = e.tables := h.tables.symm
  cases d with
  | openIf cond => exact answers_openIf h hcheck
  | openFor var container => exact answers_openFor h hcheck
  | elsif cond => exact answers_elsif h hcheck
  | otherwise =>
    cases hcheck
    exact answers_otherwise h
  | closeIf =>
    cases hcheck
    exact answers_closeIf h
  | closeFor =>
    cases hcheck
    exact answers_closeFor h
  | _ =>
    rw [hsame] at hcheck
    exact answers_perform h hcheck

/-- The layout of pieces whose markers are valid follows their blocks. -/
theorem addPieces_agree (h : e.Stands tables blocks) {pieces : List Piece}
    (hcheck : Piece.check o tables pieces = .ok tables') :
    Agree (fun blocks e => e.Stands tables' blocks) (openBlocks blocks pieces)
      (e.addPieces o pieces) := by
  induction pieces generalizing e tables blocks with
  | nil =>
    cases hcheck
    exact .ok h
  | cons p rest ih =>
    cases p with
    | text cs => exact ih (e := e.addText cs) ⟨h.tables, h.blocks⟩ hcheck
    | fault f span => cases hcheck
    | directive d span =>
      obtain ⟨t, hd, hrest⟩ := bind_eq_ok hcheck
      have hanswer := answers_directive span h hd
      rw [openBlocks, addPieces]
      generalize misplaced? blocks d = place, e.directive o span d = r at hanswer ⊢
      cases hanswer with
      | refused f => exact .error _
      | accepted h' => exact ih h' hrest

end Emitter

theorem Piece.not_fault_of_check {o : CompileOptions} {tables tables' : Tables}
    {pieces : List Piece} (h : Piece.check o tables pieces = .ok tables') (f : Fault)
    (span : Text.Span) : .fault f span ∉ pieces := by
  induction pieces generalizing tables with
  | nil => exact List.not_mem_nil
  | cons p rest ih =>
    cases p with
    | text cs => exact fun hmem => ih h (by simpa using hmem)
    | fault g s => cases h
    | directive d s =>
      obtain ⟨t, -, hrest⟩ := bind_eq_ok h
      exact fun hmem => ih hrest (by simpa using hmem)

theorem MarkersValid.exists_check {o : CompileOptions} {source : List Char}
    (h : MarkersValid o source) : ∃ tables tables', Tables.declareParams {} o.params = .ok tables ∧
      Piece.check o tables (Piece.ofSource source) = .ok tables' := by
  unfold MarkersValid at h
  cases hparams : Tables.declareParams {} o.params with
  | error f =>
    rw [hparams] at h
    cases h
  | ok tables =>
    rw [hparams] at h
    change (Piece.check o tables _).isOk = true at h
    cases hcheck : Piece.check o tables (Piece.ofSource source) with
    | error f =>
      rw [hcheck] at h
      cases h
    | ok tables' => exact ⟨tables, tables', rfl, hcheck⟩

/-- What compiling answers if all that can be wrong is where the markers stand. -/
theorem compile_of_markersValid (name : String) {o : CompileOptions} {source : List Char}
    (hvalid : MarkersValid o source) :
    match openBlocks [] (Piece.ofSource source) with
    | .error (f, span) => compile name source o = .error (.ofSpan name source span f)
    | .ok [] => (compile name source o).isOk = true
    | .ok (block :: _) => compile name source o = .error (.ofSpan name source block.opened
        (.unclosedBlock block.kind (.ofOffset source block.opened.start))) := by
  obtain ⟨tables, tables', hparams, hcheck⟩ := hvalid.exists_check
  have hstart : ({ tables } : Emitter).Stands tables [] := ⟨rfl, .nil⟩
  have hagree := Emitter.addPieces_agree hstart hcheck
  rw [compile, Emitter.ofSource, hparams]
  dsimp only
  generalize openBlocks [] (Piece.ofSource source) = r,
    Emitter.addPieces o { tables } (Piece.ofSource source) = r' at hagree
  cases hagree with
  | error e => rfl
  | @ok blocks e h =>
    obtain ⟨tables, instrs, text, open'⟩ := e
    obtain ⟨-, hblocks⟩ := h
    cases hblocks with
    | nil => rfl
    | cons hblock _ => cases hblock <;> rfl

/-- A source whose markers are valid on their own compiles exactly if its blocks are complete. Else
the answer is the first marker up to which nothing can be continued to a complete source, and what
is wrong with it among the blocks that are open there; or, if all of the source could be continued,
its innermost open block and where that was opened. -/
theorem compile_blocks (name : String) {o : CompileOptions} {source : List Char}
    (hvalid : MarkersValid o source) :
    let pieces := Piece.ofSource source
    ((compile name source o).isOk = true ↔ Body pieces) ∧
      (¬Body pieces →
        (∃ before d span after blocks f, pieces = before ++ .directive d span :: after ∧
          Viable before ∧ ¬Viable (before ++ [.directive d span]) ∧
          (∀ blocks', Opens before blocks' ↔ blocks' = blocks) ∧ misplaced? blocks d = some f ∧
          compile name source o = .error (.ofSpan name source span f)) ∨
        (Viable pieces ∧ ∃ block rest, (∀ blocks', Opens pieces blocks' ↔ blocks' = block :: rest) ∧
          compile name source o = .error (.ofSpan name source block.opened
            (.unclosedBlock block.kind (.ofOffset source block.opened.start))))) := by
  have hcompile := compile_of_markersValid name hvalid
  dsimp only
  cases hblocks : openBlocks [] (Piece.ofSource source) with
  | error e =>
    obtain ⟨f, span⟩ := e
    rw [hblocks] at hcompile
    dsimp only at hcompile
    have hbody : ¬Body (Piece.ofSource source) := by
      rw [body_iff, hblocks]
      exact nofun
    refine ⟨?_, fun _ => .inl ?_⟩
    · rw [hcompile]
      exact ⟨nofun, fun h => absurd h hbody⟩
    · obtain ⟨_, _, -, hcheck⟩ := hvalid.exists_check
      obtain ⟨before, d, after, blocks, hpieces, hviable, hstuck, hopens, hplace⟩ :=
        earliest_of_openBlocks_error hblocks (Piece.not_fault_of_check hcheck)
      exact ⟨before, d, span, after, blocks, f, hpieces, hviable, hstuck, hopens, hplace, hcompile⟩
  | ok blocks =>
    rw [hblocks] at hcompile
    cases blocks with
    | nil =>
      have hbody : Body (Piece.ofSource source) := body_iff.mpr hblocks
      exact ⟨⟨fun _ => hbody, fun _ => hcompile⟩, fun h => absurd hbody h⟩
    | cons block rest =>
      dsimp only at hcompile
      have hbody : ¬Body (Piece.ofSource source) := by
        rw [body_iff, hblocks]
        exact nofun
      have hviable : Viable (Piece.ofSource source) := viable_iff.mpr ⟨_, hblocks⟩
      refine ⟨?_, fun _ => .inr ⟨hviable, block, rest, opens_iff_eq hblocks, hcompile⟩⟩
      rw [hcompile]
      exact ⟨nofun, fun h => absurd h hbody⟩

/-- An `else` in a loop within an `if`: the loop is the innermost block. -/
theorem compile_blocks_else_in_loop :
    let source := "<:if:a><:for:i:a><:else><.for><.if>".toList
    MarkersValid {} source ∧ ¬Body (Piece.ofSource source) ∧
      ∃ before d span after blocks f, Piece.ofSource source = before ++ .directive d span :: after ∧
        Viable before ∧ ¬Viable (before ++ [.directive d span]) ∧
        (∀ blocks', Opens before blocks' ↔ blocks' = blocks) ∧ misplaced? blocks d = some f ∧
        compile "t" source {} = .error (.ofSpan "t" source span f) := by
  intro source
  have hvalid : MarkersValid {} source := by
    unfold MarkersValid
    decide +kernel
  have hrefused : (compile "t" source {}).isOk = false := by decide +kernel
  obtain ⟨haccept, hrefuse⟩ := compile_blocks "t" hvalid
  have hbody : ¬Body (Piece.ofSource source) := by
    rw [← haccept, hrefused]
    exact Bool.false_ne_true
  refine ⟨hvalid, hbody, ?_⟩
  obtain hmisplaced | ⟨hviable, -⟩ := hrefuse hbody
  · exact hmisplaced
  · obtain ⟨blocks, hblocks⟩ := viable_iff.mp hviable
    have hstuck : (openBlocks [] (Piece.ofSource source)).isOk = false := by decide +kernel
    rw [hblocks] at hstuck
    cases hstuck

end TemplateEngine

import TemplateEngine.Proofs.Debug.Blocks
import TemplateEngine.Proofs.Debug.Scan

/-! Building two programs from the same pieces, or from pieces of which one is a debug marker on one
side and nothing on the other. -/
namespace TemplateEngine

namespace TwinTables

/-- Open blocks at the same place of the two programs. -/
inductive Enclosures (T : TwinTables) : Enclosure → Enclosure → Prop where
  | branch {opened opened' : Text.Span} {outer outer' : List Item} {earlier earlier' : List Branch}
      {unknown : List String} {cond cond' : Operand} : T.Lists outer outer' →
    List.Forall₂ T.Branches earlier earlier' → T.Operands cond cond' →
    Enclosures T (.branch opened outer earlier unknown cond)
      (.branch opened' outer' earlier' unknown cond')
  | otherwise {opened opened' : Text.Span} {outer outer' : List Item}
      {earlier earlier' : List Branch} : T.Lists outer outer' →
    List.Forall₂ T.Branches earlier earlier' →
    Enclosures T (.otherwise opened outer earlier) (.otherwise opened' outer' earlier')
  | loop {opened opened' : Text.Span} {outer outer' : List Item} {header header' : Loop} :
    T.Lists outer outer' → T.Loops header header' →
    Enclosures T (.loop opened outer header) (.loop opened' outer' header')

theorem Enclosures.later {T T' : TwinTables} {e e' : Enclosure} (h : T.Enclosures e e')
    (hT : T.Grows T') : T'.Enclosures e e' := by
  cases h with
  | branch houter hearlier hcond =>
    exact .branch (houter.later hT) (hearlier.imp fun _ _ hb => hb.later hT) (hcond.later hT)
  | otherwise houter hearlier =>
    exact .otherwise (houter.later hT) (hearlier.imp fun _ _ hb => hb.later hT)
  | loop houter hheader =>
    exact .loop (houter.later hT) ⟨hheader.container.later hT, hheader.entry, hheader.next⟩

end TwinTables

namespace Tables

variable {o : CompileOptions} {t : Tables}

/-- There is no unknown name in what a debug marker names. -/
def KnowsNames (o : CompileOptions) (t : Tables) (value : Option (List Char)) : Prop :=
  ∀ text, value.filter (!Text.isAllBlank ·) = some text →
    ∀ x unknown t', t.operand o text = .ok (x, unknown, t') → unknown = []

/-- Reading an operand only lets the arena grow. -/
theorem exists_of_operand {t' : Tables} {text : List Char} {x : Operand} {unknown : List String}
    (h : t.operand o text = .ok (x, unknown, t')) :
    ∃ arena : Arena, t.arena.nodes <:+ arena.nodes ∧ t' = { t with arena } := by
  obtain ⟨⟨x', after⟩, htext, h⟩ := bind_eq_ok h
  cases h
  refine ⟨after.arena, ?_, rfl⟩
  unfold Lowering.ofText at htext
  dsimp only at htext
  split at htext
  · cases htext
  · next e _ =>
    obtain ⟨hgrows, -, -⟩ := Lowering.gives_operandOf ⟨t.slots, o.constants⟩ (Text.trim text) e
      { arena := t.arena } List.suffix_rfl
    rwa [Except.ok.inj htext] at hgrows

end Tables

namespace Builder

/-- What has been built of the two programs does the same so far. -/
inductive Twins : Builder → Builder → Prop where
  | intro (T : TwinTables) {items items' : List Item} {around around' : List Enclosure} :
    T.Lists items items' → List.Forall₂ T.Enclosures around around' →
    Twins ⟨T.left, items, around⟩ ⟨T.right, items', around'⟩

theorem twins_iff {b b' : Builder} :
    Twins b b' ↔ ∃ T : TwinTables, b.tables = T.left ∧ b'.tables = T.right ∧
      T.Lists b.items b'.items ∧ List.Forall₂ T.Enclosures b.around b'.around := by
  constructor
  · rintro ⟨T, hitems, haround⟩
    exact ⟨T, rfl, rfl, hitems, haround⟩
  · obtain ⟨tables, items, around⟩ := b
    obtain ⟨tables', items', around'⟩ := b'
    rintro ⟨T, rfl, rfl, hitems, haround⟩
    exact .intro T hitems haround

section Twins

variable {b b' : Builder} (h : Twins b b') (o : CompileOptions)
include h

omit h in
theorem twins_add {T : TwinTables} {items items' : List Item} {around around' : List Enclosure}
    (hitems : T.Lists items items') (haround : List.Forall₂ T.Enclosures around around')
    {actions actions' : List Action} (hactions : List.Forall₂ T.Actions actions actions') :
    Twins (add ⟨T.left, items, around⟩ actions) (add ⟨T.right, items', around'⟩ actions') :=
  .intro T (TwinTables.lists_add hitems hactions) haround

theorem Twins.addText (cs : List Char) : Twins (b.addText cs) (b'.addText cs) := by
  obtain ⟨T, hitems, haround⟩ := h
  unfold Builder.addText
  split
  · exact .intro T hitems haround
  · exact twins_add hitems haround (.cons (.literal _) .nil)

theorem Twins.perform (marker : Tables → Except Fault (List Action × Tables))
    (hmarker : ∀ T : TwinTables, T.Markers (marker T.left) (marker T.right)) :
    Agree Twins (b.perform (marker b.tables)) (b'.perform (marker b'.tables)) := by
  obtain ⟨T, hitems, haround⟩ := h
  apply (hmarker T).bind
  rintro _ _ ⟨hT, hactions⟩
  exact .ok (twins_add (hitems.later hT) (haround.imp fun _ _ he => he.later hT) hactions)

theorem Twins.openIf (span span' : Text.Span) (cond : List Char) :
    Agree Twins (b.openIf o span cond) (b'.openIf o span' cond) := by
  obtain ⟨T, hitems, haround⟩ := h
  apply (T.headerOperand_agree o cond).bind
  rintro _ _ ⟨unknown, hT, hcond⟩
  refine .ok (.intro _ TwinTables.lists_nil (.cons (.branch (hitems.later hT) .nil hcond) ?_))
  exact haround.imp fun _ _ he => he.later hT

theorem Twins.openFor (span span' : Text.Span) (var container : List Char) :
    Agree Twins (b.openFor o span var container) (b'.openFor o span' var container) := by
  obtain ⟨T, hitems, haround⟩ := h
  apply (T.loopHeader_agree o var container).bind
  rintro _ _ ⟨unknown, hT, hheader⟩
  have houter := TwinTables.lists_add (hitems.later hT) (TwinTables.actions_notes _ unknown)
  refine .ok (.intro _ TwinTables.lists_nil (.cons (.loop houter hheader) ?_))
  exact haround.imp fun _ _ he => he.later hT

omit h in
theorem endBranch_agree {T : TwinTables} {items items' : List Item}
    {around around' : List Enclosure}
    (hitems : T.Lists items items') (haround : List.Forall₂ T.Enclosures around around')
    (next : BranchKind) :
    Agree (fun r r' => T.Lists r.2.1 r'.2.1 ∧ List.Forall₂ T.Branches r.2.2.1 r'.2.2.1 ∧
        List.Forall₂ T.Enclosures r.2.2.2 r'.2.2.2)
      (endBranch ⟨T.left, items, around⟩ next) (endBranch ⟨T.right, items', around'⟩ next) := by
  cases haround with
  | nil => exact .error _
  | cons he haround =>
    cases he with
    | branch houter hearlier hcond =>
      exact .ok ⟨houter, .cons (.intro hcond hitems) hearlier, haround⟩
    | otherwise => exact .error _
    | loop => exact .error _

theorem Twins.otherwise : Agree Twins b.otherwise b'.otherwise := by
  obtain ⟨T, hitems, haround⟩ := h
  apply (endBranch_agree hitems haround .otherwise).bind
  rintro r r' ⟨houter, hearlier, haround⟩
  exact .ok (.intro T TwinTables.lists_nil (.cons (.otherwise houter hearlier) haround))

theorem Twins.elsif (cond : List Char) : Agree Twins (b.elsif o cond) (b'.elsif o cond) := by
  obtain ⟨T, hitems, haround⟩ := h
  apply (endBranch_agree hitems haround .elsif).bind
  rintro r r' ⟨houter, hearlier, haround⟩
  apply (T.headerOperand_agree o cond).bind
  rintro _ _ ⟨unknown, hT, hcond⟩
  refine .ok (.intro _ TwinTables.lists_nil (.cons (.branch (houter.later hT) ?_ hcond) ?_))
  · exact hearlier.imp fun _ _ hb => hb.later hT
  · exact haround.imp fun _ _ he => he.later hT

theorem Twins.closeIf : Agree Twins b.closeIf b'.closeIf := by
  obtain ⟨T, hitems, haround⟩ := h
  cases haround with
  | nil => exact .error _
  | cons he haround =>
    cases he with
    | branch houter hearlier hcond =>
      refine .ok (.intro T (TwinTables.lists_cons houter (TwinTables.items_choice ?_)) haround)
      exact TwinTables.chains_ofReverse (.cons (.intro hcond hitems) hearlier)
        TwinTables.chains_done
    | otherwise houter hearlier =>
      refine .ok (.intro T (TwinTables.lists_cons houter (TwinTables.items_choice ?_)) haround)
      exact TwinTables.chains_ofReverse hearlier (TwinTables.chains_otherwise hitems)
    | loop => exact .error _

theorem Twins.closeFor : Agree Twins b.closeFor b'.closeFor := by
  obtain ⟨T, hitems, haround⟩ := h
  cases haround with
  | nil => exact .error _
  | cons he haround =>
    cases he with
    | branch => exact .error _
    | otherwise => exact .error _
    | loop houter hheader =>
      refine .ok (.intro T (TwinTables.lists_cons houter ?_) haround)
      exact TwinTables.items_loop hheader hitems

theorem Twins.directive (span span' : Text.Span) (d : Directive) :
    Agree Twins (b.directive o span d) (b'.directive o span' d) := by
  match d with
  | .variable path => exact h.perform (fun t => t.write o path) fun T => T.write_agree o path
  | .openIf cond => exact h.openIf o span span' cond
  | .elsif cond => exact h.elsif o cond
  | .otherwise => exact h.otherwise
  | .closeIf => exact h.closeIf
  | .openFor var container => exact h.openFor o span span' var container
  | .closeFor => exact h.closeFor
  | .set var value => exact h.perform (fun t => t.set o var value) fun T => T.set_agree o var value
  | .call name args =>
    exact h.perform (fun t => t.call o name args) fun T => T.call_agree o name args
  | .exec op arg => exact h.perform (fun t => t.exec o op arg) fun T => T.exec_agree o op arg
  | .debug value compare =>
    exact h.perform (fun t => t.debug o value compare) fun T => T.debug_agree o value compare

end Twins

/-- Reads pieces. Text waits for the next marker. -/
def read (o : CompileOptions) :
    Builder → List Char → List Piece → Except (Fault × Text.Span) (Builder × List Char)
  | b, waiting, [] => .ok (b, waiting)
  | b, waiting, .text cs :: rest => read o b (waiting ++ cs) rest
  | _, _, .fault f span :: _ => .error (f, span)
  | b, waiting, .directive d span :: rest =>
    match (b.addText waiting).directive o span d with
    | .error f => .error (f, span)
    | .ok b => read o b [] rest

/-- Texts that wait together are added as one. -/
theorem addPieces_join (o : CompileOptions) (b : Builder) (waiting : List Char)
    (pieces : List Piece) :
    b.addPieces o (Piece.joinText waiting (Piece.join pieces)) =
      (b.read o waiting pieces).map fun r => r.1.addText r.2 := by
  induction pieces generalizing b waiting with
  | nil => exact addPieces_joinText o b waiting (by simp [Piece.join])
  | cons p rest ih =>
    cases p with
    | text cs => rw [Piece.join, Piece.joinText_joinText, ih, read]
    | fault f span => exact addPieces_joinText o b waiting (by simp [Piece.join])
    | directive d span =>
      have hjoin : Piece.join (.directive d span :: rest) =
          .directive d span :: Piece.join rest := by
        simp [Piece.join]
      rw [hjoin, addPieces_joinText o b waiting (by simp), addPieces, read]
      cases (b.addText waiting).directive o span d with
      | error f => rfl
      | ok b' =>
        have h := ih b' []
        rwa [Piece.joinText_nil] at h

theorem read_append (o : CompileOptions) (b : Builder) (waiting : List Char)
    (pieces rest : List Piece) :
    b.read o waiting (pieces ++ rest) =
      b.read o waiting pieces >>= fun r => r.1.read o r.2 rest := by
  fun_induction read o b waiting pieces with
  | case1 => rfl
  | case2 b waiting cs rest ih => rw [List.cons_append, read, ih]
  | case3 => rfl
  | case4 b waiting d span rest f hd =>
    rw [List.cons_append, read, hd]
    rfl
  | case5 b waiting d span rest b' hd ih =>
    rw [List.cons_append, read, hd]
    exact ih

@[simp] theorem tables_addText (b : Builder) (cs : List Char) :
    (b.addText cs).tables = b.tables := by
  unfold addText
  split <;> rfl

@[simp] theorem around_addText (b : Builder) (cs : List Char) :
    (b.addText cs).around = b.around := by
  unfold addText
  split <;> rfl

/-- To a seamless sink it makes no difference whether texts are added together or apart. -/
theorem runBlock_addText_append {σ : Type} [Sink σ] (hseamless : Sink.Seamless σ) (b : Builder)
    (cs ds : List Char) (f : Frame) (enter : Enter σ) (index : Nat) :
    f.runBlock enter index (.ofReverse (b.addText (cs ++ ds)).items) =
      f.runBlock enter index (.ofReverse ((b.addText cs).addText ds).items) := by
  cases cs with
  | nil => simp [addText]
  | cons c cs =>
    cases ds with
    | nil => simp [addText]
    | cons d ds =>
      have hitems : (b.addText (c :: cs ++ d :: ds)).items =
          .action (.literal (String.ofList (c :: cs) ++ String.ofList (d :: ds))) :: b.items := by
        rw [← String.ofList_append]
        rfl
      have hitems' : ((b.addText (c :: cs)).addText (d :: ds)).items =
          .action (.literal (String.ofList (d :: ds))) ::
            .action (.literal (String.ofList (c :: cs))) :: b.items := rfl
      rw [hitems, hitems', f.runBlock_ofReverse_cons, f.runBlock_ofReverse_cons,
        f.runBlock_ofReverse_cons]
      simp only [Frame.runItem, Frame.act, Run.emit_append hseamless, bind_assoc]

/-- More text comes to the text that waits. -/
theorem Twins.append {b b' : Builder} {waiting waiting' : List Char}
    (h : Twins (b.addText waiting) (b'.addText waiting')) (cs : List Char) :
    Twins (b.addText (waiting ++ cs)) (b'.addText (waiting' ++ cs)) := by
  obtain ⟨T, hleft, hright, hitems, haround⟩ := twins_iff.mp (h.addText cs)
  simp only [tables_addText, around_addText] at hleft hright haround
  refine twins_iff.mpr
    ⟨T, by simpa using hleft, by simpa using hright, ⟨?_⟩, by simpa using haround⟩
  intro σ _ L f f' enter enter' hsteps index index'
  rw [runBlock_addText_append hsteps.seamless, runBlock_addText_append hsteps.seamless]
  exact hitems.run hsteps index index'

/-- The two programs are built from the same pieces, at whatever places. -/
theorem Twins.read {b b' : Builder} {waiting waiting' : List Char} (o : CompileOptions)
    {pieces pieces' : List Piece} (hpieces : List.Forall₂ Piece.Alike pieces pieces')
    (h : Twins (b.addText waiting) (b'.addText waiting')) {r : Builder × List Char}
    (hr : b.read o waiting pieces = .ok r) :
    ∃ r', b'.read o waiting' pieces' = .ok r' ∧ Twins (r.1.addText r.2) (r'.1.addText r'.2) := by
  induction hpieces generalizing b b' waiting waiting' with
  | nil =>
    cases hr
    exact ⟨_, rfl, h⟩
  | cons hp _ ih =>
    cases hp with
    | text cs => exact ih (h.append cs) hr
    | fault f span span' => cases hr
    | directive d span span' =>
      have hagree := h.directive o span span' d
      rw [Builder.read] at hr ⊢
      generalize (b.addText waiting).directive o span d = r₁,
        (b'.addText waiting').directive o span' d = r₂ at hagree hr ⊢
      cases hagree with
      | error f => cases hr
      | @ok b₁ b₁' h₁ =>
        have h₁ : Twins (b₁.addText []) (b₁'.addText []) := h₁
        exact ih h₁ hr

/-- A debug marker on one side is nothing on the other, if it knows all names in it. -/
theorem Twins.mute {b b' b₁ : Builder} (h : Twins b b') {o : CompileOptions} {span : Text.Span}
    {value compare : Option (List Char)} (hknows : b.tables.KnowsNames o value)
    (hb : b.directive o span (.debug value compare) = .ok b₁) : Twins b₁ b' := by
  obtain ⟨T, hitems, haround⟩ := h
  obtain ⟨⟨actions, tables⟩, hdebug, hb⟩ := bind_eq_ok hb
  cases hb
  unfold Tables.debug at hdebug
  dsimp only at hdebug
  split at hdebug
  · cases hdebug
    exact .intro T (TwinTables.lists_mute hitems _ _) haround
  · next text htext =>
    obtain ⟨⟨x, unknown, t⟩, hoperand, hdebug⟩ := bind_eq_ok hdebug
    cases hdebug
    obtain rfl := hknows text htext x unknown _ hoperand
    obtain ⟨arena, harena, rfl⟩ := Tables.exists_of_operand hoperand
    let T' : TwinTables := { T with arena }
    have hT : T.Grows T' := ⟨List.prefix_rfl, harena, List.suffix_rfl⟩
    exact .intro T' (TwinTables.lists_mute (hitems.later hT) _ _)
      (haround.imp fun _ _ he => he.later hT)

end Builder

end TemplateEngine

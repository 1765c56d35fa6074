import TemplateEngine.Proofs.Nested.Views
import TemplateEngine.Proofs.References.Mentions

/-! The slots of a compiled program and what its instructions refer to, both told by the markers of
its source in their order. -/
namespace TemplateEngine

/-- References are not jumps. -/
def Instr.referencesView (a : Arena) : Instr.View Reference where
  sees := references a
  setNext _ i := by cases i <;> rfl
  setStop _ i := by cases i <;> rfl

theorem Instr.textless_referencesView (a : Arena) : (referencesView a).Textless :=
  fun _ => rfl

namespace Emitter

def references (a : Arena) (e : Emitter) : List Reference :=
  e.seen (Instr.referencesView a)

/-- From `e` to `e'` the references of the mentions are laid out, and then `known` is known. -/
def Reads (o : CompileOptions) (e e' : Emitter) (known : List String)
    (mentions : List (List String × Mention)) : Prop :=
  ∃ references : Arena → List Reference,
    Tables.Read o e.tables e'.tables known mentions references ∧
      ∀ a, e'.references a = e.references a ++ references a

variable {o : CompileOptions} {e e' : Emitter} {known : List String}

theorem Reads.nil (h : e.tables.Knows known) (htables : e'.tables = e.tables)
    (hreferences : ∀ a, e'.references a = e.references a) : Reads o e e' known [] := by
  refine ⟨fun _ => [], ?_, fun a => (hreferences a).trans (List.append_nil _).symm⟩
  rw [htables]
  exact .nil h

theorem Reads.trans {e'' : Emitter} {known' : List String}
    {mentions mentions' : List (List String × Mention)} (h : Reads o e e' known mentions)
    (h' : Reads o e' e'' known' mentions') : Reads o e e'' known' (mentions ++ mentions') := by
  obtain ⟨references, hread, hreferences⟩ := h
  obtain ⟨references', hread', hreferences'⟩ := h'
  refine ⟨_, hread.trans hread', fun a => ?_⟩
  rw [hreferences', hreferences, List.append_assoc]

theorem Reads.tables {mentions : List (List String × Mention)} (h : Reads o e e' known mentions) :
    e.tables.Grows e'.tables ∧ e'.tables.Knows known := by
  obtain ⟨references, hread, -⟩ := h
  exact ⟨hread.grows, hread.knows⟩

theorem reads_perform {marker : Except Fault (List Action × Tables)}
    {mentions : List (List String × Mention)}
    (hmarker : ∀ {actions tables}, marker = .ok (actions, tables) →
      Tables.Read o e.tables tables known mentions fun a => actions.flatMap (Action.references a))
    (h : e.perform marker = .ok e') : Reads o e e' known mentions := by
  obtain ⟨⟨actions, tables⟩, hmarker', h⟩ := bind_eq_ok h
  cases h
  refine ⟨_, hmarker hmarker', fun a => ?_⟩
  have hall := e.flush.seen_emitAll (Instr.referencesView a) actions
  rw [seen_flush e (Instr.textless_referencesView a)] at hall
  exact hall

/-- The header of a block comes after its notes. -/
theorem reads_header {tables : Tables} {mentions : List (List String × Mention)} {i : Instr}
    {unknown : List String} {blocks : List OpenBlock} (k : Emitter)
    (hk : ∀ a, k.references a = e.references a)
    (hread : Tables.Read o e.tables tables known mentions fun a => i.references a) :
    Reads o e { (k.emitAll (notes unknown)).emit i with tables, blocks } known mentions := by
  refine ⟨_, hread, fun a => ?_⟩
  have hall := (k.emitAll (notes unknown)).seen_emit (Instr.referencesView a) i
  rw [seen_notes _ (Instr.textless_referencesView a)] at hall
  rw [← hk]
  exact hall

theorem references_flush (e : Emitter) (a : Arena) : e.flush.references a = e.references a :=
  e.seen_flush (Instr.textless_referencesView a)

/-- A marker resolves its mentions with the names that were known before it. -/
theorem reads_directive (hknown : e.tables.Knows known) {span : Text.Span} {d : Directive}
    (h : e.directive o span d = .ok e') :
    Reads o e e' (known ++ d.declares) (d.mentions.map (known, ·)) := by
  match d with
  | .variable path =>
    rw [Directive.declares, List.append_nil]
    exact reads_perform (Tables.read_write hknown) h
  | .openIf cond =>
    obtain ⟨⟨cond', unknown, tables⟩, hcond, h⟩ := bind_eq_ok h
    cases h
    rw [Directive.declares, List.append_nil]
    exact reads_header e.flush e.references_flush (Tables.read_headerOperand hknown hcond)
  | .elsif cond =>
    obtain ⟨e₁, hclose, h⟩ := bind_eq_ok h
    obtain ⟨⟨cond', unknown, tables⟩, hcond, h⟩ := bind_eq_ok h
    cases h
    have hseen (a : Arena) := seen_closeLink (Instr.referencesView a) hclose
    rw [(hseen {}).1] at hcond
    rw [Directive.declares, List.append_nil]
    exact reads_header e₁ (fun a => (hseen a).2.trans (e.references_flush a))
      (Tables.read_headerOperand hknown hcond)
  | .otherwise =>
    obtain ⟨e₁, hclose, h⟩ := bind_eq_ok h
    cases h
    have hseen (a : Arena) := seen_closeLink (Instr.referencesView a) hclose
    rw [Directive.declares, List.append_nil]
    refine .nil hknown (hseen {}).1 fun a => ?_
    refine (seen_emit _ e₁ .otherwise).trans ((List.append_nil _).trans ?_)
    exact (hseen a).2.trans (e.references_flush a)
  | .closeIf =>
    have hseen (a : Arena) := seen_closeIf (Instr.referencesView a) h
    rw [Directive.declares, List.append_nil]
    exact .nil hknown (hseen {}).1 fun a => (hseen a).2.trans (e.references_flush a)
  | .openFor var container =>
    obtain ⟨⟨header, unknown, tables⟩, hheader, h⟩ := bind_eq_ok h
    cases h
    exact reads_header e.flush e.references_flush (Tables.read_loopHeader hknown hheader)
  | .closeFor =>
    have hseen (a : Arena) := seen_closeFor (Instr.referencesView a) h
    rw [Directive.declares, List.append_nil]
    refine .nil hknown (hseen {}).1 fun a => (hseen a).2.trans ?_
    exact (List.append_nil _).trans (e.references_flush a)
  | .set var value => exact reads_perform (Tables.read_set hknown) h
  | .call name args =>
    rw [Directive.declares, List.append_nil]
    exact reads_perform (Tables.read_call hknown) h
  | .exec op arg =>
    rw [Directive.declares, List.append_nil]
    exact reads_perform (Tables.read_exec hknown) h
  | .debug value compare =>
    rw [Directive.declares, List.append_nil]
    exact reads_perform (Tables.read_debug hknown) h

theorem reads_addPieces (hknown : e.tables.Knows known) {pieces : List Piece}
    (h : addPieces o e pieces = .ok e') :
    Reads o e e' (known ++ pieces.flatMap Piece.declares) (Piece.mentions known pieces) := by
  induction pieces generalizing e known with
  | nil =>
    cases h
    exact .nil (by simpa using hknown) rfl fun _ => rfl
  | cons p rest ih =>
    cases p with
    | text cs => exact ih (e := e.addText cs) hknown h
    | fault f span => cases h
    | directive d span =>
      rw [addPieces] at h
      split at h
      · cases h
      · next e₁ hd =>
        have hdirective := reads_directive hknown hd
        have hrest := ih hdirective.tables.2 h
        rw [List.append_assoc] at hrest
        exact hdirective.trans hrest

theorem addPieces_append (o : CompileOptions) (e : Emitter) (before after : List Piece) :
    addPieces o e (before ++ after) = addPieces o e before >>= fun e => addPieces o e after := by
  induction before generalizing e with
  | nil => rfl
  | cons p rest ih =>
    cases p with
    | text cs => exact ih (e.addText cs)
    | fault f span => rfl
    | directive d span =>
      rw [List.cons_append, addPieces, addPieces]
      cases e.directive o span d with
      | error f => rfl
      | ok e => exact ih e

end Emitter

theorem eraseDups_of_nodup {names : List String} (h : names.Nodup) : names.eraseDups = names := by
  induction names with
  | nil => rfl
  | cons name rest ih =>
    obtain ⟨hname, hrest⟩ := List.nodup_cons.mp h
    have hfilter : rest.filter (fun b => !b == name) = rest := by
      refine List.filter_eq_self.mpr fun b hb => ?_
      simpa using ne_of_mem_of_not_mem hb hname
    rw [List.eraseDups_cons, hfilter, ih hrest]

/-- A name is resolved to its slot exactly where it is known. -/
theorem CompileOptions.mem_known_iff {o : CompileOptions} {slots : SlotMap} {known : List String}
    (hslots : ∀ s ∈ known, s ∈ slots.names) {name : String} :
    name ∈ known ↔ ∃ slot, slots.lookup? name = some slot ∧
      o.rootIn slots known (.name name) = some (.slot slot) ∧
      o.calleeIn slots known name = some (.held slot) := by
  refine ⟨fun hname => ?_, fun ⟨slot, _, hroot, _⟩ => ?_⟩
  · obtain ⟨slot, hslot⟩ := SlotMap.mem_names_iff.mp (hslots name hname)
    refine ⟨slot, hslot, ?_, ?_⟩
    · rw [rootIn, if_pos hname, hslot]
      rfl
    · rw [calleeIn, if_pos hname, hslot]
      rfl
  · by_contra hname
    rw [rootIn, if_neg hname] at hroot
    obtain ⟨v, -, hv⟩ := Option.map_eq_some_iff.mp hroot
    cases hv

/-- The slots of a program are those of its parameters and then of the names that its markers
declare, in order, each where it comes first. A marker gives the names in it their meaning with what
was declared before it: each name that was declared is its own slot, any other one a constant or, if
it is called, a template. The instructions refer to what the names in the source become so. -/
theorem slots_of_compile {name : String} {source : List Char} {o : CompileOptions} {p : Program}
    (h : compile name source o = .ok p) :
    let params := o.params.map fun param => Text.trimmed param.toList
    let pieces := Piece.ofSource source
    p.slots.names = (params ++ pieces.flatMap Piece.declares).eraseDups ∧ p.slots.names.Nodup ∧
      (∀ name slot, p.slots.lookup? name = some slot ↔ p.slots.nameOf? slot = some name) ∧
      (∃ tables, Tables.declareParams {} o.params = .ok tables ∧
        ∀ before d span after, pieces = before ++ .directive d span :: after →
          let known := params ++ before.flatMap Piece.declares
          (∃ e, Emitter.addPieces o { tables } before = .ok e ∧
            Names.root? ⟨e.tables.slots, o.constants⟩ = o.rootIn p.slots known) ∧
          ∀ name, name ∈ known ↔ ∃ slot, p.slots.lookup? name = some slot ∧
            o.rootIn p.slots known (.name name) = some (.slot slot) ∧
            o.calleeIn p.slots known name = some (.held slot)) ∧
      p.instrs.flatMap (Instr.references p.arena) =
        (Piece.mentions params pieces).flatMap fun m => m.2.references o p.slots m.1 := by
  intro params pieces
  obtain ⟨tables, e, htables, hpieces, rfl⟩ := layout_of_compile h
  have hparams : tables.slots.names = params := names_declareParams htables
  have hknown : tables.Knows params := by
    rw [Tables.Knows, ← hparams, eraseDups_of_nodup tables.slots.nodup]
  obtain ⟨references, hread, hreferences⟩ := Emitter.reads_addPieces hknown hpieces
  rw [← e.flush_tables] at hread
  refine ⟨hread.knows, e.flush.tables.slots.nodup, fun _ _ => SlotMap.lookup?_eq_some_iff,
    ⟨tables, htables, ?_⟩, ?_⟩
  · intro before d span after hsplit known
    have hall : pieces = Piece.ofSource source := rfl
    rw [← hall, hsplit, Emitter.addPieces_append] at hpieces
    obtain ⟨k, hbefore, hafter⟩ := bind_eq_ok hpieces
    have hk := (Emitter.reads_addPieces hknown hbefore).tables.2
    have hgrows := (Emitter.reads_addPieces hk hafter).tables.1
    rw [← e.flush_tables] at hgrows
    refine ⟨⟨k, hbefore, hk.root?_eq hgrows⟩, fun name => ?_⟩
    refine CompileOptions.mem_known_iff fun s hs => ?_
    exact hgrows.slots.subset (hk.mem_iff.mpr hs)
  · have hall := hread.references e.flush.tables (.refl _)
    exact (e.references_flush _).trans ((hreferences _).trans hall)

/-- The first `x` is not declared yet. The loop declares it again, and the companion of it is set
like any other variable. -/
theorem slots_of_compile_again :
    let source :=
      "<:set:x=x><:for:x:xs><&x_next><:call:x><.for><:set:x_next=k><:call:f:a=xs>".toList
    let o : CompileOptions :=
      { params := [" xs "], constants := [("k", .bool true), ("xs", .null)], forward := ["f", "x"] }
    let resolved (references : List Reference) : Bool := references matches
      [.operand (some (.const .null)), .target (some 1),
        .operand (some (.path (.slot 0) [])), .target (some 1), .target (some 2),
        .operand (some (.path (.slot 2) [])),
        .callee (some (.held 1)),
        .operand (some (.const (.bool true))), .target (some 2),
        .callee (some (.named "f")), .operand (some (.path (.slot 0) []))]
    ∃ p, compile "t" source o = .ok p ∧ p.slots.names = ["xs", "x", "x_next"] ∧
      resolved (p.instrs.flatMap (Instr.references p.arena)) := by
  intro source o resolved
  have hresolved : (compile "t" source o).toOption.any (fun p : Program =>
      resolved ((Piece.mentions ["xs"] (Piece.ofSource source)).flatMap fun m =>
        m.2.references o p.slots m.1)) = true := by decide +kernel
  cases hp : compile "t" source o with
  | error e =>
    rw [hp] at hresolved
    cases hresolved
  | ok p =>
    obtain ⟨hnames, -, -, -, hreferences⟩ := slots_of_compile hp
    refine ⟨p, rfl, hnames.trans (by decide +kernel), ?_⟩
    rw [hp] at hresolved
    rw [hreferences]
    exact hresolved

end TemplateEngine

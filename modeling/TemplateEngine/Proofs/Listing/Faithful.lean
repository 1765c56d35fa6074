import TemplateEngine.Proofs.Listing.Compiled

/-! Listings are faithful. The slots of a program are those of its parameters and then of the names
that its instructions give, so that a listing tells them, although it shows neither the table of
slots nor the slots in which loops look ahead. -/
namespace TemplateEngine

/-- The names that an instruction declares, from what a listing tells of it. -/
def InstrForm.declared : InstrForm × Option String → List String
  | (.loop .., some name) => [name, name ++ "_next"]
  | (_, name) => name.toList

def Reference.target? (slots : SlotMap) : Reference → Option String
  | .target (some slot) => some (slots.shownName slot)
  | .target none | .operand _ | .callee _ => none

theorem Action.targets_references (a : Arena) (slots : SlotMap) (x : Action) :
    (x.references a).filterMap (Reference.target? slots) =
      ((x.form a).target?.map slots.shownName).toList := by
  match x with
  | .set target value => rfl
  | .call c =>
    rw [references, List.filterMap_cons_none rfl]
    exact List.filterMap_eq_nil_iff.mpr (List.forall_mem_map.mpr fun _ _ => rfl)
  | .literal _ | .variable _ => rfl
  | .exec _ arg => cases arg <;> rfl
  | .debug value _ => cases value <;> rfl

/-- An instruction assigns the slots whose names it declares. -/
theorem Instr.targets_references {a : Arena} {slots : SlotMap} {i : Instr}
    (h : (i.form a).Sound slots.shownName) :
    (i.references a).filterMap (Reference.target? slots) =
      InstrForm.declared ((i.form a).told slots.shownName) := by
  cases i with
  | action x => exact x.targets_references a slots
  | branch first cond next stop => rfl
  | loop header stop =>
    have hnext : slots.shownName header.next = slots.shownName header.entry ++ "_next" := h.2.2
    change [slots.shownName header.entry, slots.shownName header.next] = _
    rw [hnext]
    rfl
  | otherwise | endLoop => rfl

def Mention.targets : Mention → List String
  | .target name => [name]
  | .written _ | .header _ | .operand _ | .callee _ => []

theorem Directive.targets_mentions (d : Directive) :
    d.mentions.flatMap Mention.targets = d.declares := by
  match d with
  | .call name args =>
    rw [mentions, List.flatMap_cons]
    refine List.flatMap_eq_nil_iff.mpr fun m hm => ?_
    obtain ⟨arg, -, hm⟩ := List.mem_filterMap.mp hm
    obtain ⟨binding, -, rfl⟩ := Option.map_eq_some_iff.mp hm
    rfl
  | .exec op arg =>
    rw [mentions]
    cases arg.filter (!Text.isAllBlank ·) <;> rfl
  | .debug value compare =>
    rw [mentions]
    cases value.filter (!Text.isAllBlank ·) <;> rfl
  | .variable _ | .openIf _ | .elsif _ | .otherwise | .closeIf | .openFor .. | .closeFor
  | .set .. => rfl

section Mentions

variable {o : CompileOptions} {slots : SlotMap}

/-- The target of a mention is the slot of its name. -/
theorem Mention.targets_references {m : Mention} (h : ∀ name ∈ m.targets, name ∈ slots.names)
    (known : List String) :
    (m.references o slots known).filterMap (Reference.target? slots) = m.targets := by
  cases m with
  | written text =>
    rw [references]
    split <;> rfl
  | target name =>
    obtain ⟨slot, hslot⟩ := SlotMap.mem_names_iff.mp (h name (List.mem_singleton_self name))
    simp [references, Reference.target?, hslot, SlotMap.shownName_of_lookup? hslot, targets]
  | header text | operand text | callee name => rfl

theorem Piece.targets_references {pieces : List Piece}
    (h : ∀ name ∈ pieces.flatMap Piece.declares, name ∈ slots.names) (known : List String) :
    ((Piece.mentions known pieces).flatMap fun m => m.2.references o slots m.1).filterMap
      (Reference.target? slots) = pieces.flatMap Piece.declares := by
  induction pieces generalizing known with
  | nil => rfl
  | cons piece rest ih =>
    obtain ⟨hpiece, hrest⟩ := List.forall_mem_append.mp h
    cases piece with
    | directive d span =>
      rw [mentions, List.flatMap_append, List.filterMap_append, ih hrest, List.flatMap_map,
        List.flatMap_cons, declares, ← d.targets_mentions, List.filterMap_flatMap]
      congr 1
      refine List.flatMap_congr fun m hm => Mention.targets_references (fun name hname => ?_) known
      refine hpiece name ?_
      rw [declares, ← d.targets_mentions]
      exact List.mem_flatMap.mpr ⟨m, hm, hname⟩
    | text cs => exact ih hrest known
    | fault f span => exact ih hrest known

end Mentions

/-- The slots of a program, from what a listing tells of its instructions. -/
theorem names_of_compile {name : String} {source : List Char} {o : CompileOptions} {p : Program}
    (h : compile name source o = .ok p) (hlegible : p.Legible) :
    p.slots.names = (p.params ++
      (p.forms.map (InstrForm.told p.slots.shownName)).flatMap InstrForm.declared).eraseDups := by
  have hparams := params_of_compile h
  have hsound := hlegible.sound
  obtain ⟨tables, e, htables, hpieces, rfl⟩ := layout_of_compile h
  obtain ⟨references, hread, hreferences⟩ := Emitter.reads_addPieces tables.knows_self hpieces
  rw [← e.flush_tables] at hread
  have hdeclared : ∀ name ∈ (Piece.ofSource source).flatMap Piece.declares,
      name ∈ e.flush.tables.slots.names :=
    fun _ hname => hread.knows.mem_iff.mpr (List.mem_append_right _ hname)
  have htargets : (e.flush.instrs.toList.flatMap
      (Instr.references e.flush.tables.arena)).filterMap (Reference.target? e.flush.tables.slots) =
        (Piece.ofSource source).flatMap Piece.declares := by
    have hall := hread.references e.flush.tables (.refl _)
    rw [← Piece.targets_references hdeclared, ← hall]
    exact congrArg _ ((e.references_flush _).trans (hreferences _))
  have hforms : ((e.flush.program name o).forms.map
      (InstrForm.told e.flush.tables.slots.shownName)).flatMap InstrForm.declared =
        (Piece.ofSource source).flatMap Piece.declares := by
    rw [Program.forms, List.map_map, List.flatMap_map, ← htargets, List.filterMap_flatMap]
    exact List.flatMap_congr fun i hi => (Instr.targets_references (hsound i hi)).symm
  have hstart := names_declareParams htables
  rw [hparams]
  exact hread.knows.trans (by rw [hstart, ← hforms]; rfl)

/-! Programs with one listing. -/

theorem SlotMap.ext_names {m m' : SlotMap} (h : m.names = m'.names) : m = m' := by
  cases m
  cases m'
  cases h
  rfl

theorem SlotMap.shownName_inj {m : SlotMap} {a b : SlotId} (ha : a < m.size) (hb : b < m.size)
    (h : m.shownName a = m.shownName b) : a = b := by
  have hname {slot : SlotId} (hslot : slot < m.size) :
      m.lookup? (m.shownName slot) = some slot := by
    rw [lookup?_eq_some_iff, shownName, nameOf?, List.getElem?_eq_getElem hslot, Option.getD_some]
  have hlookup := hname ha
  rw [h, hname hb] at hlookup
  exact (Option.some.inj hlookup).symm

/-- With the slots known, the slot in which a loop looks ahead is known as well. -/
theorem InstrForm.told_inj {m : SlotMap} {i j : InstrForm} (hi : i.Sound m.shownName)
    (hj : j.Sound m.shownName)
    (hnext : ∀ container entry next stop, i = .loop container entry next stop → next < m.size)
    (hnext' : ∀ container entry next stop, j = .loop container entry next stop → next < m.size)
    (h : i.told m.shownName = j.told m.shownName) : i = j := by
  have hform := congrArg Prod.fst h
  cases i with
  | loop container entry next stop =>
    cases j with
    | loop container' entry' next' stop' =>
      obtain ⟨rfl, rfl, -, rfl⟩ := InstrForm.loop.inj hform
      have hname : m.shownName next = m.shownName next' := hi.2.2.trans hj.2.2.symm
      rw [SlotMap.shownName_inj (hnext _ _ _ _ rfl) (hnext' _ _ _ _ rfl) hname]
    | _ => cases hform
  | _ =>
    cases j with
    | loop => cases hform
    | _ => exact hform

theorem Program.Legible.next_lt {p : Program} (h : p.Legible) {container : OperandForm}
    {entry next : SlotId} {stop : Nat} (hloop : .loop container entry next stop ∈ p.forms) :
    next < p.slots.size := by
  obtain ⟨i, hi, hform⟩ := List.mem_map.mp hloop
  cases i with
  | loop header stop' =>
    cases hform
    exact h.slots _ hi header.next (by simp [Instr.slots])
  | _ => cases hform

theorem Program.Legible.forms_eq {p q : Program} (hp : p.Legible) (hq : q.Legible)
    (hslots : p.slots = q.slots) (htold : p.forms.map (InstrForm.told p.slots.shownName) =
      q.forms.map (InstrForm.told q.slots.shownName)) : p.forms = q.forms := by
  have hsound {p : Program} (h : p.Legible) : ∀ i ∈ p.forms, i.Sound p.slots.shownName :=
    List.forall_mem_map.mpr h.sound
  have hlength : p.forms.length = q.forms.length := by
    simpa using congrArg List.length htold
  refine List.ext_getElem hlength fun n hn hn' => ?_
  have hi := List.getElem_mem hn
  have hj := List.getElem_mem hn'
  have htold : (p.forms[n].told p.slots.shownName) = (q.forms[n].told q.slots.shownName) := by
    have hn? := congrArg (·[n]?) htold
    simpa [hn, hn'] using hn?
  have hqsound := hsound hq _ hj
  rw [← hslots] at htold hqsound
  refine InstrForm.told_inj (hsound hp _ hi) hqsound ?_ ?_ htold
  · exact fun _ _ _ _ heq => hp.next_lt (heq ▸ hi)
  · exact fun _ _ _ _ heq => hslots ▸ hq.next_lt (heq ▸ hj)

/-- The listing of a compiled program is faithful. It has a line for the head and one for each
instruction, and no two programs have the same listing that differ in their parameters, in their
slots or in their instructions, with the nodes that those refer to as trees and with templates and
operations by their names. -/
theorem listing_faithful {name name' : String} {source source' : List Char}
    {o o' : CompileOptions} {p q : Program} (hp : compile name source o = .ok p)
    (hq : compile name' source' o' = .ok q) (hplain : p.Plain) (hplain' : q.Plain) :
    (∃ lines : List (List Char), p.listing.toList = lines.flatMap (· ++ ['\n']) ∧
      (∀ line ∈ lines, '\n' ∉ line) ∧ lines.length = p.instrs.length + 1) ∧
    (p.listing = q.listing → p.name = q.name ∧ p.params = q.params ∧
      p.callSites = q.callSites ∧ p.slots = q.slots ∧ p.forms = q.forms) := by
  have hlegible := legible_of_compile hp hplain
  have hlegible' := legible_of_compile hq hplain'
  refine ⟨⟨p.lines, hlegible.toList_listing, hlegible.not_mem_lines, ?_⟩, fun heq => ?_⟩
  · rw [Program.lines, List.length_cons, InstrForm.length_lines, Program.forms, List.length_map]
  · obtain ⟨⟨hname, hparams, hsites⟩, htold⟩ := hlegible.listing_inj hlegible' heq
    have hslots : p.slots = q.slots := SlotMap.ext_names (by
      rw [names_of_compile hp hlegible, names_of_compile hq hlegible', hparams, htold])
    exact ⟨hname, hparams, hsites, hslots, hlegible.forms_eq hlegible' hslots htold⟩

/-- Two sources with the same listing. The arena of the first has more nodes, those of a condition
with an unknown name and those of a constant with a name. -/
theorem listing_faithful_arenas :
    let o : CompileOptions :=
      { params := ["xs"], constants := [("k", .int 5)], forward := ["row"] }
    let source := ("<:if:y+1><.if>" ++
      "<:for:x:xs><&x_next.name><:call:row:a=x+k><.for><:set:last=k>").toList
    let source' := ("[?y: unknown variable]<:if:null><.if>" ++
      "<:for:x:xs><&x_next.name><:call:row:a=x+5><.for><:set:last=5>").toList
    ∃ p q, compile "t" source o = .ok p ∧ compile "t" source' o = .ok q ∧ p.Plain ∧ q.Plain ∧
      p.arena.size ≠ q.arena.size ∧ p.listing = q.listing ∧
      (∃ lines : List (List Char), p.listing.toList = lines.flatMap (· ++ ['\n']) ∧
        (∀ line ∈ lines, '\n' ∉ line) ∧ lines.length = p.instrs.length + 1) ∧
      p.slots = q.slots ∧ p.forms = q.forms := by
  intro o source source'
  have hevaluated : (compile "t" source o).toOption.any (fun p =>
      (compile "t" source' o).toOption.any fun q => decide (p.Plain ∧ q.Plain ∧
        p.arena.size ≠ q.arena.size ∧ p.listing = q.listing)) = true := by
    decide +kernel
  obtain ⟨p, hp, hevaluated⟩ := (Option.any_eq_true _ _).mp hevaluated
  obtain ⟨q, hq, hevaluated⟩ := (Option.any_eq_true _ _).mp hevaluated
  obtain ⟨hplain, hplain', hsize, heq⟩ := of_decide_eq_true hevaluated
  have hp := eq_ok_of_toOption hp
  have hq := eq_ok_of_toOption hq
  obtain ⟨hlines, hfaithful⟩ := listing_faithful hp hq hplain hplain'
  obtain ⟨-, -, -, hslots, hforms⟩ := hfaithful heq
  exact ⟨p, q, hp, hq, hplain, hplain', hsize, heq, hlines, hslots, hforms⟩

end TemplateEngine

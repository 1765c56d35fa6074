import TemplateEngine.Proofs.Listing.Compiled
import TemplateEngine.Proofs.Syntax.Names
import TemplateEngine.Proofs.Syntax.Variable

/-! Whatever a template declares, a variable marker with that name refers to it: among the markers
that come after the declaration, and behind the whole source. -/
namespace TemplateEngine

open Text (byteLength)

namespace Piece

/-- In a text without a marker the first marker is the one that is put behind it. -/
theorem nextMarker_of_none {seen cs plain : List Char} (h : nextMarker seen cs = (plain, none))
    (opener : Opener) (rest : List Char) :
    plain = seen.reverse ++ cs ∧
      nextMarker seen (cs ++ '<' :: opener.char :: rest) = (plain, some (opener, rest)) := by
  fun_induction nextMarker seen cs with
  | case1 seen =>
    cases h
    simp [nextMarker]
  | case2 => cases h
  | case3 seen c tail ho ih =>
    obtain ⟨rfl, hnext⟩ := ih h
    refine ⟨by simp, ?_⟩
    rw [List.cons_append, List.cons_append, nextMarker_of_text ho]
    exact hnext
  | case4 seen c tail hnot ih =>
    obtain ⟨rfl, hnext⟩ := ih h
    refine ⟨by simp, ?_⟩
    by_cases hc : c = '<'
    · -- Only at the end can a `<` stand alone, and the next one does not make a marker of it.
      subst hc
      cases tail with
      | nil =>
        rw [List.cons_append, List.nil_append, nextMarker_of_text (by decide)]
        exact hnext
      | cons d tail => exact absurd rfl (hnot d tail rfl)
    · rw [List.cons_append, nextMarker_of_ne hc]
      exact hnext

section Behind

variable {opener : Opener} {body after : List Char} {d : Directive}
  (htext : markerText (body ++ '>' :: after) = some (body, after))
  (hd : Marker.classify opener body = .ok (.directive d))
include htext hd

/-- A marker behind a source without faults is one more piece. No marker before it can reach into
it, since each of them is closed, and no skip passes over it. -/
theorem scan_append_marker (start : Nat) (afterSkip : Bool) {cs : List Char}
    (h : ∀ f span, .fault f span ∉ scan start afterSkip cs) :
    let opened := start + byteLength cs
    let closed := opened + byteLength (opener.marker body)
    scan start afterSkip (cs ++ (opener.marker body ++ after)) =
      scan start afterSkip cs ++ .directive d ⟨opened, closed⟩ :: scan closed false after := by
  have hmarker : opener.marker body ++ after = '<' :: opener.char :: (body ++ '>' :: after) := by
    simp [Opener.marker]
  rw [hmarker]
  fun_induction scan start afterSkip cs with
  | case1 start afterSkip cs plain hnext =>
    obtain ⟨rfl, hnext'⟩ := nextMarker_of_none hnext opener (body ++ '>' :: after)
    rw [scan_directive hnext' htext hd]
    simp only [Nat.add_assoc, byteLength_closed]
    rfl
  | case2 start afterSkip cs plain opener' rest hnext opened htext' =>
    exact absurd (List.mem_cons_of_mem _ List.mem_cons_self) (h .unterminatedMarker _)
  | case3 start afterSkip cs plain opener' rest hnext opened body' after' htext' hlt closed f hf =>
    exact absurd (List.mem_cons_of_mem _ List.mem_cons_self) (h f _)
  | case4 start afterSkip cs plain opener' rest hnext opened body' after' htext' hlt closed d' =>
    rename_i hd' ih
    obtain ⟨hcs, hnext'⟩ := exists_of_nextMarker hnext
    obtain ⟨hrest, htext''⟩ := exists_of_markerText htext'
    have hlater := ih fun f span hmem => h f span (by simp [hmem])
    have hplace : start + byteLength cs = closed + byteLength after' := by
      rw [hcs, hrest, Text.byteLength_append, byteLength_marker]
      omega
    dsimp only at hlater ⊢
    rw [hplace, hcs, hrest]
    simp only [List.append_assoc, List.cons_append]
    refine (scan_directive (hnext' opener' _) (htext'' _) hd').trans ?_
    exact congrArg (.text plain :: .directive d' ⟨opened, closed⟩ :: ·) hlater
  | case5 start afterSkip cs plain opener' rest hnext opened body' after' htext' hlt closed l hl =>
    rename_i ih
    obtain ⟨hcs, hnext'⟩ := exists_of_nextMarker hnext
    obtain ⟨hrest, htext''⟩ := exists_of_markerText htext'
    have hlater := ih fun f span hmem => h f span (by simp [hmem])
    obtain ⟨passed, hpassed⟩ := l.exists_skipped after'
    have hlength := congrArg byteLength hpassed
    rw [Text.byteLength_append] at hlength
    have hplace : start + byteLength cs =
        closed + (byteLength after' - byteLength (l.skip after')) + byteLength (l.skip after') := by
      rw [hcs, hrest, Text.byteLength_append, byteLength_marker]
      omega
    have hstart (v : List Char) : byteLength (after' ++ '<' :: v) -
        byteLength (l.skip (after' ++ '<' :: v)) =
          byteLength after' - byteLength (l.skip after') := by
      rw [l.skip_append, Text.byteLength_append, Text.byteLength_append]
      omega
    dsimp only at hlater ⊢
    rw [hplace, hcs, hrest]
    simp only [List.append_assoc, List.cons_append]
    refine (scan_layout (hnext' opener' _) (htext'' _) hl).trans ?_
    dsimp only
    rw [hstart, l.skip_append]
    exact congrArg (.text plain :: .text (l.text (afterSkip && plain.isEmpty)) :: ·) hlater

end Behind

theorem markerText_of_isName {name : List Char} (h : Text.isName name) (after : List Char) :
    markerText (name ++ '>' :: after) = some (name, after) := by
  have hcomment : ¬['-', '-'] <+: name ++ '>' :: after := by
    intro hdashes
    have hmem : '-' ∈ name := (comment_append_iff.mp hdashes).subset List.mem_cons_self
    exact absurd (Text.isNamePart_of_isName h hmem) (by decide)
  rw [markerText_of_not_comment hcomment]
  exact Text.cutAtTop_of_past (Embedding.past_of_isName h (by decide)) after

end Piece

namespace Tables

/-- What may be declared is what is read as a variable. -/
theorem exists_declare_iff {t : Tables} {name : List Char} :
    (∃ slot t', t.declare name = .ok (slot, t')) ↔
      Expr.parse name = .ok (.path (.name (Text.trimmed name)) []) := by
  rw [← Expr.parse_trim, Text.trimmed, ← Expr.isName_iff_parse]
  refine ⟨?_, fun h => ?_⟩
  · rintro ⟨slot, t', h⟩
    exact (of_declare h).1
  · rw [declare, if_pos h]
    exact ⟨_, _, rfl⟩

theorem lower_name {t : Tables} {s : String} {slot : SlotId} (h : t.slots.lookup? s = some slot)
    (o : CompileOptions) (text : List Char) :
    t.lower o text (.path (.name s) []) = (.slot slot, { arena := t.arena }) := by
  have hroot : Names.root? ⟨t.slots, o.constants⟩ (.name s) = some (.slot slot) := by
    rw [Names.root?, h]
  rw [lower, Lowering.operandOf]
  unfold Lowering.root
  rw [hroot]
  rfl

end Tables

namespace Emitter

variable {o : CompileOptions} {e e' : Emitter}

theorem directive_name {s : String} (hs : Text.isName s.toList) {slot : SlotId}
    (hslot : e.tables.slots.lookup? s = some slot) (span : Text.Span) :
    e.directive o span (.variable s.toList) =
      .ok (e.flush.emit (.action (.variable (.slot slot)))) := by
  rw [directive, Tables.write_of_parse (Expr.parse_of_isName hs), Tables.lower_name hslot]
  have htables : { e.flush.emit (.action (.variable (.slot slot))) with tables := e.tables } =
      e.flush.emit (.action (.variable (.slot slot))) := by
    rw [← e.flush_tables]
    rfl
  exact congrArg Except.ok htables

theorem not_fault_of_addPieces {pieces : List Piece} (h : addPieces o e pieces = .ok e') (f : Fault)
    (span : Text.Span) : .fault f span ∉ pieces := by
  intro hmem
  obtain ⟨before, after, rfl⟩ := List.append_of_mem hmem
  rw [addPieces_append] at h
  obtain ⟨k, -, h⟩ := bind_eq_ok h
  cases h

theorem flush_text (e : Emitter) : e.flush.text = [] := by
  unfold flush
  split
  · next h => exact List.isEmpty_iff.mp h
  · rfl

theorem program_behind (e : Emitter) (i : Instr) (name : String) (o : CompileOptions) :
    ((e.flush.emit i).addText []).flush.program name o =
      { e.flush.program name o with instrs := (e.flush.program name o).instrs ++ [i] } := by
  have hflush : ((e.flush.emit i).addText []).flush = (e.flush.emit i).addText [] := by
    rw [flush, if_pos]
    simp [addText, emit, flush_text]
  rw [hflush]
  simp [program, addText, emit]

end Emitter

/-- A marker that names a slot of a program, behind the source of the program, is one more
instruction. -/
theorem compile_append_name {name : String} {source : List Char} {o : CompileOptions} {p : Program}
    (h : compile name source o = .ok p) {s : String} (hs : Text.isName s.toList) {slot : SlotId}
    (hslot : p.slots.lookup? s = some slot) :
    compile name (source ++ Opener.variable.marker s.toList) o =
      .ok { p with instrs := p.instrs ++ [.action (.variable (.slot slot))] } := by
  obtain ⟨tables, e, htables, hpieces, hblocks, rfl⟩ := compile_eq_ok_iff_layout.mp h
  have hclass : Marker.classify .variable s.toList = .ok (.directive (.variable s.toList)) := rfl
  have hscan := Piece.scan_append_marker (Piece.markerText_of_isName hs []) hclass 0 false
    (Emitter.not_fault_of_addPieces hpieces)
  dsimp only at hscan
  rw [List.append_nil, Piece.scan_nil] at hscan
  have hslot' : e.tables.slots.lookup? s = some slot := by
    rwa [← e.flush_tables]
  refine compile_eq_ok_iff_layout.mpr
    ⟨tables, (e.flush.emit (.action (.variable (.slot slot)))).addText [], htables, ?_, ?_, ?_⟩
  · rw [Piece.ofSource, hscan, Emitter.addPieces_append]
    rw [Piece.ofSource] at hpieces
    simp only [hpieces, bind, Except.bind, Emitter.addPieces, Emitter.directive_name hs hslot']
  · exact e.flush_blocks.trans hblocks
  · exact (e.program_behind _ name o).symm

/-- Whatever is a parameter or declared by a marker is a name with a slot. -/
theorem Emitter.exists_slot {o : CompileOptions} {tables : Tables} {pieces : List Piece}
    {e : Emitter} (htables : Tables.declareParams {} o.params = .ok tables)
    (hpieces : addPieces o { tables } pieces = .ok e) {s : String}
    (hs : s ∈ o.params.map (fun param => Text.trimmed param.toList) ++
      pieces.flatMap Piece.declares) :
    Text.isName s.toList ∧ ∃ slot, e.tables.slots.lookup? s = some slot := by
  have hparams : tables.slots.names = o.params.map fun param => Text.trimmed param.toList :=
    names_declareParams htables
  have hknown := (reads_addPieces tables.knows_self hpieces).tables.2
  rw [hparams] at hknown
  have hmem : s ∈ e.tables.slots.names := hknown.mem_iff.mpr hs
  have hstart : Sound { tables } :=
    ⟨Tables.named_declareParams htables (List.forall_mem_nil _), List.forall_mem_nil _⟩
  exact ⟨(hstart.addPieces hpieces).named s hmem, SlotMap.mem_names_iff.mp hmem⟩

/-- What may be declared is what an operand refers to as a variable by its own spelling. So each
parameter and each name that the markers of a source declare can be referred to by a variable
marker: from then on, wherever the marker stands and whatever comes after it, and behind the whole
source too. -/
theorem names_read_back :
    (∀ cs, Text.isName cs ↔ Expr.parse cs = .ok (.path (.name (String.ofList cs)) [])) ∧
    (∀ (t : Tables) (name : List Char), (∃ slot t', t.declare name = .ok (slot, t')) ↔
      Expr.parse name = .ok (.path (.name (Text.trimmed name)) [])) ∧
    ∀ (o : CompileOptions),
      let params := o.params.map fun param => Text.trimmed param.toList
      (∀ tables pieces e, Tables.declareParams {} o.params = .ok tables →
        Emitter.addPieces o { tables } pieces = .ok e →
        ∀ s ∈ params ++ pieces.flatMap Piece.declares,
          ∃ slot, e.tables.slots.lookup? s = some slot ∧ ∀ start afterSkip after,
            let marker := Opener.variable.marker s.toList
            let closed := start + byteLength marker
            Piece.scan start afterSkip (marker ++ after) =
                .text [] :: .directive (.variable s.toList) ⟨start, closed⟩ ::
                  Piece.scan closed false after ∧
              e.directive o ⟨start, closed⟩ (.variable s.toList) =
                .ok (e.flush.emit (.action (.variable (.slot slot))))) ∧
      ∀ name source p, compile name source o = .ok p →
        ∀ s ∈ params ++ (Piece.ofSource source).flatMap Piece.declares,
          ∃ slot, p.slots.lookup? s = some slot ∧
            compile name (source ++ Opener.variable.marker s.toList) o =
              .ok { p with instrs := p.instrs ++ [.action (.variable (.slot slot))] } := by
  refine ⟨fun cs => Expr.isName_iff_parse, fun t name => Tables.exists_declare_iff, ?_⟩
  intro o params
  refine ⟨?_, ?_⟩
  · intro tables pieces e htables hpieces s hs
    obtain ⟨hname, slot, hslot⟩ := Emitter.exists_slot htables hpieces hs
    refine ⟨slot, hslot, fun start afterSkip after => ⟨?_, Emitter.directive_name hname hslot _⟩⟩
    exact Piece.scan_marker_directive (Piece.markerText_of_isName hname after) start afterSkip rfl
  · intro name source p hp s hs
    obtain ⟨tables, e, htables, hpieces, -, rfl⟩ := compile_eq_ok_iff_layout.mp hp
    obtain ⟨hname, slot, hslot⟩ := Emitter.exists_slot htables hpieces hs
    have hslot' : (e.flush.program name o).slots.lookup? s = some slot := by
      rwa [Emitter.program, e.flush_tables]
    exact ⟨slot, hslot', compile_append_name hp hname hslot'⟩

/-- The loop declares two names, and the marker in it one that is there after the loop as well. -/
theorem names_read_back_loop :
    let source := "<:for: x :xs><:set:y=x_next><.for>".toList
    let o : CompileOptions := { params := [" xs "] }
    let names := ["xs", "x", "x_next", "y"]
    (∀ s ∈ names, Expr.parse s.toList = .ok (.path (.name s) [])) ∧
    ∃ tables e p, Tables.declareParams {} o.params = .ok tables ∧
      Emitter.addPieces o { tables } (Piece.ofSource source) = .ok e ∧
      compile "t" source o = .ok p ∧
      ∀ s ∈ names, ∃ slot,
        (let closed := 34 + byteLength (Opener.variable.marker s.toList)
        e.directive o ⟨34, closed⟩ (.variable s.toList) =
          .ok (e.flush.emit (.action (.variable (.slot slot))))) ∧
        p.slots.lookup? s = some slot ∧
        compile "t" (source ++ Opener.variable.marker s.toList) o =
          .ok { p with instrs := p.instrs ++ [.action (.variable (.slot slot))] } := by
  intro source o names
  obtain ⟨hread, -, hdeclared⟩ := names_read_back
  obtain ⟨hlaid, hbehind⟩ := hdeclared o
  have hnames : o.params.map (fun param => Text.trimmed param.toList) ++
      (Piece.ofSource source).flatMap Piece.declares = names := by decide +kernel
  have hok : (compile "t" source o).isOk := by decide +kernel
  obtain ⟨p, hp⟩ := exists_of_isOk hok
  obtain ⟨tables, e, htables, hpieces, -, rfl⟩ := compile_eq_ok_iff_layout.mp hp
  rw [← hnames]
  refine ⟨fun s hs => ?_, tables, e, _, htables, hpieces, hp, fun s hs => ?_⟩
  · have hparse := (hread s.toList).mp (Emitter.exists_slot htables hpieces hs).1
    rwa [String.ofList_toList] at hparse
  · obtain ⟨slot, hslot, hmarker⟩ := hlaid tables _ e htables hpieces s hs
    obtain ⟨slot', hslot', hcompile⟩ := hbehind "t" source _ hp s hs
    obtain rfl : slot = slot' := by
      rw [Emitter.program, e.flush_tables, hslot] at hslot'
      exact Option.some.inj hslot'
    exact ⟨slot, (hmarker 34 false []).2, hslot', hcompile⟩

end TemplateEngine

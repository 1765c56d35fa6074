import TemplateEngine.Proofs.Blocks.Acceptance
import TemplateEngine.Proofs.Debug.Scan

/-! The place of an error. All errors of compiling but those of the parameters are about a marker of
the source, and their place is that of the marker. -/
namespace TemplateEngine

namespace Text

/-- The place of this part of the source, in bytes. -/
def Span.Holds (span : Span) (source text : List Char) : Prop :=
  ∃ before after, source = before ++ (text ++ after) ∧ span.start = byteLength before ∧
    span.stop = span.start + byteLength text

variable {span : Span} {source text : List Char}

theorem Span.Holds.le (h : span.Holds source text) :
    span.start ≤ span.stop ∧ span.stop ≤ byteLength source := by
  obtain ⟨before, after, rfl, hstart, hstop⟩ := h
  simp only [byteLength_append]
  omega

/-- A part of a part of a source. -/
theorem Span.Holds.shift (h : span.Holds source text) (before after : List Char) :
    (span.shift (byteLength before)).Holds (before ++ (source ++ after)) text := by
  obtain ⟨first, last, rfl, hstart, hstop⟩ := h
  refine ⟨before ++ first, last ++ after, by simp, ?_, ?_⟩
  · rw [Span.shift, hstart, byteLength_append, Nat.add_comm]
  · simp only [Span.shift]
    omega

end Text

theorem Piece.MarkerAt.holds {source body : List Char} {opener : Opener} {span : Text.Span}
    (h : MarkerAt 0 source opener body span) : span.Holds source (opener.marker body) := by
  obtain ⟨before, after, rfl, hstart, hstop⟩ := h.place
  refine ⟨before, after, by simp [Opener.marker], by rw [hstart, Nat.zero_add], ?_⟩
  rw [hstop, Opener.marker, Piece.byteLength_marker, Text.byteLength_nil, Nat.add_zero]

/-- The block that a marker opens. -/
def Directive.opens? : Directive → Option BlockKind
  | .openIf _ => some .cond
  | .openFor _ _ => some .loop
  | .elsif _ | .otherwise | .closeIf | .closeFor => none
  | .variable _ | .set _ _ | .call _ _ | .exec _ _ | .debug _ _ => none

/-- The marker that opened the innermost block. -/
theorem Opens.exists_opening {pieces : List Piece} {block : Opened} {blocks : List Opened}
    (h : Opens pieces (block :: blocks)) :
    ∃ d, .directive d block.opened ∈ pieces ∧ d.opens? = some block.kind := by
  obtain ⟨kind, opened, hasElse⟩ := block
  cases kind with
  | cond =>
    obtain ⟨before, c, body, more, rfl, -⟩ := h.exists_branches
    exact ⟨.openIf c, List.mem_append_right _ List.mem_cons_self, rfl⟩
  | loop =>
    cases h with
    | @openFor var container _ before body _ hbefore hbody =>
      exact ⟨.openFor var container, List.mem_append_right _ List.mem_cons_self, rfl⟩

namespace Emitter

variable {o : CompileOptions} {e e' : Emitter} {tables : Tables} {blocks : List Opened}

/-- A marker that is accepted is valid on its own. -/
theorem exists_check_of_directive (h : e.Stands tables blocks) {span : Text.Span} {d : Directive}
    (hd : e.directive o span d = .ok e') : ∃ t, d.check o tables = .ok t := by
  have hperform {marker : Except Fault (List Action × Tables)}
      (hmarker : e.perform marker = .ok e') : ∃ t, marker.map (·.2) = .ok t := by
    obtain ⟨⟨actions, t⟩, rfl, -⟩ := bind_eq_ok hmarker
    exact ⟨t, rfl⟩
  obtain ⟨rfl, hblocks⟩ := h
  cases d with
  | openIf cond =>
    obtain ⟨⟨op, unknown, t⟩, hop, -⟩ := bind_eq_ok hd
    exact ⟨t, by rw [Directive.check, hop]; rfl⟩
  | openFor var container =>
    obtain ⟨⟨header, unknown, t⟩, hheader, -⟩ := bind_eq_ok hd
    exact ⟨t, by rw [Directive.check, hheader]; rfl⟩
  | elsif cond =>
    obtain ⟨e₁, hlink, hcond⟩ := bind_eq_ok hd
    obtain ⟨⟨op, unknown, t⟩, hop, -⟩ := bind_eq_ok hcond
    have hanswer := answers_closeLink ⟨rfl, hblocks⟩ (e := e) .elsif
    rw [hlink] at hanswer
    generalize misplacedBranch? .elsif blocks = place at hanswer
    cases hanswer with
    | accepted hstands => exact ⟨t, by rw [Directive.check, ← hstands.tables, hop]; rfl⟩
  | otherwise | closeIf | closeFor => exact ⟨_, rfl⟩
  | _ => exact hperform hd

/-- The open blocks of a layout are those of the pieces that it was made of. -/
theorem exists_stands_of_addPieces (h : e.Stands tables blocks) {pieces : List Piece}
    (he : e.addPieces o pieces = .ok e') :
    ∃ blocks', openBlocks blocks pieces = .ok blocks' ∧ e'.Stands e'.tables blocks' := by
  induction pieces generalizing e tables blocks with
  | nil =>
    cases he
    exact ⟨blocks, rfl, rfl, h.blocks⟩
  | cons p rest ih =>
    cases p with
    | text cs => exact ih (e := e.addText cs) ⟨h.tables, h.blocks⟩ he
    | fault f span => cases he
    | directive d span =>
      rw [addPieces] at he
      split at he
      · cases he
      · next e₁ hd =>
        obtain ⟨t, ht⟩ := exists_check_of_directive h hd
        have hanswer := answers_directive span h ht
        rw [hd] at hanswer
        rw [openBlocks]
        generalize misplaced? blocks d = place at hanswer ⊢
        cases hanswer with
        | accepted hstands => exact ih hstands he

/-- The first piece that is at fault, and the layout of those before it. -/
theorem exists_of_addPieces_error {pieces : List Piece} {f : Fault} {span : Text.Span}
    (h : e.addPieces o pieces = .error (f, span)) :
    ∃ before p after, pieces = before ++ p :: after ∧ ∃ e', e.addPieces o before = .ok e' ∧
      (p = .fault f span ∨ ∃ d, p = .directive d span ∧ e'.directive o span d = .error f) := by
  induction pieces generalizing e with
  | nil => cases h
  | cons p rest ih =>
    cases p with
    | text cs =>
      obtain ⟨before, p, after, rfl, e', he', hp⟩ := ih h
      exact ⟨.text cs :: before, p, after, rfl, e', he', hp⟩
    | fault g s =>
      cases h
      exact ⟨[], _, rest, rfl, e, rfl, .inl rfl⟩
    | directive d s =>
      rw [addPieces] at h
      split at h
      · next hd =>
        cases h
        exact ⟨[], _, rest, rfl, e, rfl, .inr ⟨d, rfl, hd⟩⟩
      · next e₁ hd =>
        obtain ⟨before, p, after, rfl, e', he', hp⟩ := ih h
        refine ⟨.directive d s :: before, p, after, rfl, e', ?_, hp⟩
        rw [addPieces, hd]
        exact he'

/-- A layout that cannot be finished has an open block, and the innermost one is told. -/
theorem Stands.exists_of_finish_error (h : e.Stands tables blocks) {source : List Char} {f : Fault}
    {span : Text.Span} (hfinish : e.finish source = .error (f, span)) :
    ∃ block rest, blocks = block :: rest ∧ span = block.opened ∧
      f = .unclosedBlock block.kind (.ofOffset source block.opened.start) := by
  obtain ⟨-, hblocks⟩ := h
  unfold finish at hfinish
  split at hfinish
  · cases hfinish
  · next hopen =>
    cases hfinish
    rw [hopen] at hblocks
    cases hblocks with
    | @cons block _ rest _ hblock _ =>
      refine ⟨block, rest, rfl, ?_⟩
      cases hblock <;> exact ⟨rfl, rfl⟩

/-- Compiling comes to this piece, with this layout of the pieces before it. -/
def Reaches (o : CompileOptions) (source : List Char) (e : Emitter) (p : Piece) : Prop :=
  ∃ tables before after, Tables.declareParams {} o.params = .ok tables ∧
    Piece.ofSource source = before ++ p :: after ∧ addPieces o { tables } before = .ok e

end Emitter

namespace Malformed

/-- A marker is at fault because of what it is read as: it is read as nothing, it is refused by what
was laid out before it, or it opened the innermost of the blocks that are open in the end. -/
inductive AtFault (o : CompileOptions) (source : List Char) (e : Malformed) :
    Except Fault Marker → Prop where
  | unreadable {before : Emitter} :
    before.Reaches o source (.fault e.fault e.span) → AtFault o source e (.error e.fault)
  | refused {before : Emitter} {d : Directive} : before.Reaches o source (.directive d e.span) →
    before.directive o e.span d = .error e.fault → AtFault o source e (.ok (.directive d))
  | unclosed {d : Directive} {kind : BlockKind} {hasElse : Bool} {blocks : List Opened} :
    Opens (Piece.ofSource source) (⟨kind, e.span, hasElse⟩ :: blocks) → d.opens? = some kind →
      e.fault = .unclosedBlock kind e.position → AtFault o source e (.ok (.directive d))

/-- What an error is about, and the text at its place. -/
inductive Blames (o : CompileOptions) (source : List Char) (e : Malformed) : List Char → Prop where
  | params : Tables.declareParams {} o.params = .error e.fault → e.span = ⟨0, 0⟩ →
    Blames o source e []
  | unterminated {before : Emitter} {opener : Opener} {rest : List Char} :
    before.Reaches o source (.fault e.fault e.span) → e.fault = .unterminatedMarker →
      Piece.markerText rest = none → e.span.stop = Text.byteLength source →
        Blames o source e ('<' :: opener.char :: rest)
  | marker {opener : Opener} {body : List Char} : Piece.MarkerAt 0 source opener body e.span →
    AtFault o source e (Marker.classify opener body) → Blames o source e (opener.marker body)

/-- An error points to a part of the source, with the line and the column where that starts. -/
structure Points (name : String) (o : CompileOptions) (source : List Char) (e : Malformed) :
    Prop where
  template : e.template = name
  bounds : e.span.start ≤ e.span.stop ∧ e.span.stop ≤ Text.byteLength source
  position : e.position = .ofOffset source e.span.start
  text : ∃ text, e.span.Holds source text ∧ e.Blames o source text

end Malformed

theorem Emitter.Reaches.readFrom {o : CompileOptions} {source : List Char} {e : Emitter}
    {p : Piece} (h : e.Reaches o source p) : Piece.ReadFrom 0 source p := by
  obtain ⟨tables, before, after, -, hpieces, -⟩ := h
  have hmem : p ∈ Piece.scan 0 false source := by
    rw [← Piece.ofSource, hpieces]
    exact List.mem_append_right _ List.mem_cons_self
  exact Piece.readFrom_of_mem_scan hmem

namespace Malformed

variable {name : String} {o : CompileOptions} {source : List Char} {f : Fault} {span : Text.Span}

theorem points_of_holds {text : List Char} (hholds : span.Holds source text)
    (hblames : (ofSpan name source span f).Blames o source text) :
    (ofSpan name source span f).Points name o source :=
  ⟨rfl, hholds.le, rfl, text, hholds, hblames⟩

theorem points_of_fault {before : Emitter} (h : before.Reaches o source (.fault f span)) :
    (ofSpan name source span f).Points name o source := by
  cases h.readFrom with
  | fault hmarker hf =>
    exact points_of_holds hmarker.holds (.marker hmarker (hf ▸ .unreadable h))
  | @unterminated first rest opener _ hcs htext hstart hstop =>
    rw [Nat.zero_add] at hstart hstop
    have hholds : span.Holds source ('<' :: opener.char :: rest) := by
      refine ⟨first, [], by rw [List.append_nil, hcs], hstart, ?_⟩
      rw [hstop, hstart, hcs, Text.byteLength_append]
    exact points_of_holds hholds (.unterminated h rfl htext hstop)

theorem points_of_directive {before : Emitter} {d : Directive}
    (h : before.Reaches o source (.directive d span)) (hd : before.directive o span d = .error f) :
    (ofSpan name source span f).Points name o source := by
  cases h.readFrom with
  | directive hmarker hclass =>
    exact points_of_holds hmarker.holds (.marker hmarker (hclass ▸ .refused h hd))

theorem points_of_opens {block : Opened} {blocks : List Opened}
    (h : Opens (Piece.ofSource source) (block :: blocks)) :
    (ofSpan name source block.opened
      (.unclosedBlock block.kind (.ofOffset source block.opened.start))).Points name o source := by
  obtain ⟨d, hmem, hopens⟩ := h.exists_opening
  cases Piece.readFrom_of_mem_scan hmem with
  | directive hmarker hclass =>
    exact points_of_holds hmarker.holds (.marker hmarker (hclass ▸ .unclosed h hopens rfl))

end Malformed

theorem points_of_compile {name : String} {source : List Char} {o : CompileOptions} {e : Malformed}
    (h : compile name source o = .error e) : e.Points name o source := by
  unfold compile at h
  split at h
  · next f span hsource =>
    cases h
    unfold Emitter.ofSource at hsource
    split at hsource
    · next hparams =>
      cases hsource
      have hnothing : Text.Span.Holds ⟨0, 0⟩ source [] := ⟨[], source, rfl, rfl, rfl⟩
      exact Malformed.points_of_holds hnothing (.params hparams rfl)
    · next tables hparams =>
      cases hpieces : Emitter.addPieces o { tables } (Piece.ofSource source) with
      | error fault =>
        rw [hpieces] at hsource
        cases hsource
        obtain ⟨before, p, after, hsplit, e', he', hp⟩ :=
          Emitter.exists_of_addPieces_error hpieces
        have hreaches : e'.Reaches o source p := ⟨tables, before, after, hparams, hsplit, he'⟩
        obtain rfl | ⟨d, rfl, hd⟩ := hp
        · exact Malformed.points_of_fault hreaches
        · exact Malformed.points_of_directive hreaches hd
      | ok e' =>
        rw [hpieces] at hsource
        obtain ⟨blocks, hblocks, hstands⟩ :=
          Emitter.exists_stands_of_addPieces (e := { tables }) ⟨rfl, .nil⟩ hpieces
        obtain ⟨block, rest, rfl, rfl, rfl⟩ := hstands.exists_of_finish_error hsource
        exact Malformed.points_of_opens (Opens.of_openBlocks hblocks)
  · cases h

end TemplateEngine

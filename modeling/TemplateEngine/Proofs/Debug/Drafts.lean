import TemplateEngine.Proofs.Debug.Builders

/-! A source in which an empty comment stands in place of a debug marker. -/
namespace TemplateEngine

namespace Builder

theorem exists_of_read_directive {o : CompileOptions} {b : Builder} {waiting : List Char}
    {pieces rest : List Piece} {d : Directive} {span : Text.Span} {r : Builder × List Char}
    (h : b.read o waiting (pieces ++ .directive d span :: rest) = .ok r) :
    ∃ r₁ b₁, b.read o waiting pieces = .ok r₁ ∧
      (r₁.1.addText r₁.2).directive o span d = .ok b₁ ∧ b₁.read o [] rest = .ok r := by
  rw [read_append] at h
  obtain ⟨r₁, hr₁, h⟩ := bind_eq_ok h
  rw [read] at h
  split at h
  · cases h
  · next b₁ hb₁ => exact ⟨r₁, b₁, hr₁, hb₁, h⟩

/-- The tables after some pieces are those of the one pass. -/
theorem exists_of_read {o : CompileOptions} {tables : Tables} {pieces : List Piece}
    {r : Builder × List Char} (h : read o { tables } [] pieces = .ok r) :
    ∃ e, Emitter.addPieces o { tables } pieces = .ok e ∧ e.tables = (r.1.addText r.2).tables := by
  have hlayout := Emitter.addPieces_layout o pieces { tables } []
  rw [addPieces_join, h] at hlayout
  obtain ⟨e, he, hflush⟩ := map_eq_ok hlayout
  exact ⟨e, he, Emitter.tables_of_layout hflush⟩

theorem twins_refl (tables : Tables) : Twins { tables } { tables } :=
  .intro ⟨tables.slots, tables.callSites, tables.arena, tables.arena⟩ TwinTables.lists_nil .nil

end Builder

theorem draft_eq_ok_iff {o : CompileOptions} {source : List Char} {d : Draft} :
    draft o source = .ok d ↔ ∃ tables r, Tables.declareParams {} o.params = .ok tables ∧
      Builder.read o { tables } [] (Piece.ofSource source) = .ok r ∧
      (r.1.addText r.2).finish source = .ok d := by
  unfold draft
  rw [← Piece.joinText_nil (Piece.join _)]
  cases Tables.declareParams {} o.params with
  | error f => simp
  | ok tables =>
    simp only [Builder.addPieces_join, Except.ok.injEq]
    constructor
    · intro h
      obtain ⟨b, hb, hfinish⟩ := bind_eq_ok h
      obtain ⟨r, hr, rfl⟩ := map_eq_ok hb
      exact ⟨tables, r, rfl, hr, hfinish⟩
    · rintro ⟨_, r, rfl, hr, hfinish⟩
      rw [hr]
      exact hfinish

/-- Drafts with the same tables but for their arenas, and whose programs do the same. -/
inductive Draft.Twins : Draft → Draft → Prop where
  | intro (T : TwinTables) {body body' : Block} : T.Blocks body body' →
    Twins ⟨body, T.left⟩ ⟨body', T.right⟩

theorem Builder.Twins.finish {b b' : Builder} (h : Twins b b') (source source' : List Char)
    {d : Draft} (hd : b.finish source = .ok d) : ∃ d', b'.finish source' = .ok d' ∧ d.Twins d' := by
  obtain ⟨T, hitems, haround⟩ := h
  cases haround with
  | nil =>
    cases hd
    exact ⟨_, rfl, .intro T hitems⟩
  | cons => cases hd

/-- There is no unknown name in `value` where these pieces have been read. -/
def KnownAfter (o : CompileOptions) (pieces : List Piece) (value : Option (List Char)) : Prop :=
  ∀ tables e, Tables.declareParams {} o.params = .ok tables →
    Emitter.addPieces o { tables } pieces = .ok e → e.tables.KnowsNames o value

/-- An empty comment in place of a debug marker gives a program that does the same. -/
theorem draft_emptyComment {o : CompileOptions} {before marker after : List Char}
    {pieces rest : List Piece} {value compare : Option (List Char)}
    (hpieces : Piece.ofSource (before ++ (marker ++ after)) = pieces ++
      .directive (.debug value compare)
        ⟨Text.byteLength before, Text.byteLength before + Text.byteLength marker⟩ :: rest)
    (hknown : KnownAfter o pieces value) {d : Draft}
    (hd : draft o (before ++ (marker ++ after)) = .ok d) :
    ∃ d', draft o (before ++ (Piece.emptyComment ++ after)) = .ok d' ∧ d.Twins d' := by
  obtain ⟨closed, closed', rfl, hpieces'⟩ : ∃ closed closed', rest = Piece.scan closed false after ∧
      Piece.ofSource (before ++ (Piece.emptyComment ++ after)) =
        pieces ++ .text [] :: Piece.scan closed' false after := by
    rw [← Nat.zero_add (Text.byteLength before)] at hpieces
    exact (Piece.scan_emptyComment rfl hpieces).2
  obtain ⟨tables, r, htables, hr, hfinish⟩ := draft_eq_ok_iff.mp hd
  rw [hpieces] at hr
  obtain ⟨r₁, b₁, hr₁, hb₁, hr⟩ := Builder.exists_of_read_directive hr
  have hnames : (r₁.1.addText r₁.2).tables.KnowsNames o value := by
    obtain ⟨e, he, heq⟩ := Builder.exists_of_read hr₁
    exact heq ▸ hknown tables e htables he
  -- Up to the marker the pieces are the same, and after it they are the same but for their places.
  have hstart : (Builder.addText { tables } []).Twins (Builder.addText { tables } []) :=
    Builder.twins_refl tables
  obtain ⟨r₁', hr₁', htwins⟩ := hstart.read o (List.forall₂_same.mpr fun p _ => .refl p) hr₁
  have hmute : (b₁.addText []).Twins (r₁'.1.addText r₁'.2) := htwins.mute hnames hb₁
  obtain ⟨r', hr', htwins'⟩ :=
    (hmute.append []).read o (Piece.scan_alike closed closed' false after) hr
  obtain ⟨d', hd', hd''⟩ := htwins'.finish _ (before ++ (Piece.emptyComment ++ after)) hfinish
  refine ⟨d', draft_eq_ok_iff.mpr ⟨tables, r', htables, ?_, hd'⟩, hd''⟩
  rw [hpieces', Builder.read_append, hr₁']
  exact hr'

end TemplateEngine

import TemplateEngine.Proofs.Plain.Source

/-! Code point escapes: a source that is one of them. -/
namespace TemplateEngine

theorem compile_codePoint {hex : List Char} {c : Char} (hc : CodePointText (Text.trim hex) c)
    {o : CompileOptions} {tables : Tables}
    (htables : Tables.declareParams {} o.params = .ok tables) (name : String) :
    ∃ p, compile name ("<:x".toList ++ hex ++ ['>']) o = .ok p ∧
      p.instrs = [.action (.literal (String.singleton c))] ∧
      ∀ (t : Template) (w : World) (ro : RunOptions) (ctx : Context), t.toProgram = p →
        ctx.isFor t → (render w ro t ctx).1 = .ok (String.singleton c) := by
  let s : PlainSource := {
    lead := []
    parts := [⟨'x' :: hex, .character c, [], .codePoint (Marker.codePoint?_eq_some_iff.mpr hc),
      by decide⟩]
    plain := by decide }
  have hsource : s.source = "<:x".toList ++ hex ++ ['>'] := by
    simp [s, PlainSource.source, LayoutPart.source, Opener.marker, Opener.char]
  have htext : s.text = [c] := rfl
  have hinstrs : s.instrs = [.action (.literal (String.singleton c))] := by
    rw [PlainSource.instrs, htext]
    rfl
  rw [← hsource]
  refine ⟨_, s.compile_eq htables name, hinstrs, ?_⟩
  rintro t w ro ctx ht hctx
  have hrender := s.render_eq (congrArg (·.instrs) ht) w ro hctx
  rw [htext] at hrender
  exact hrender

/-- Where nothing in the text of an escape could end its marker early, a text of no character is the
fault of the source. -/
theorem compile_not_codePoint {hex : List Char}
    (hfree : ∀ d ∈ hex, d ≠ '>' ∧ d ∉ Text.Nesting.enclosing)
    (hnone : ∀ c, ¬CodePointText (Text.trim hex) c) {o : CompileOptions} {tables : Tables}
    (htables : Tables.declareParams {} o.params = .ok tables) (name : String) :
    let source := "<:x".toList ++ hex ++ ['>']
    compile name source o =
      .error (.ofSpan name source ⟨0, Text.byteLength source⟩
        (.invalidCodePoint (String.ofList hex))) := by
  intro source
  have htext : Piece.markerText ('x' :: hex ++ ['>']) = some ('x' :: hex, []) := by
    rw [Piece.markerText_of_not_comment (by simp)]
    refine Text.cutAtTop_of_past (Text.Nesting.past_of_not_enclosing ?_) []
    exact List.forall_mem_cons.mpr ⟨by decide, hfree⟩
  have hcode : Marker.codePoint? (Text.trim hex) = none :=
    Option.eq_none_iff_forall_ne_some.mpr fun c hc =>
      hnone c (Marker.codePoint?_eq_some_iff.mp hc)
  have hclass : Marker.classify .directive ('x' :: hex) =
      .error (.invalidCodePoint (String.ofList hex)) := by
    rw [Marker.classify_codePoint, hcode]
  have hsource : source = Opener.directive.marker ('x' :: hex) ++ [] := by
    simp [source, Opener.marker, Opener.char]
  have hscan : Piece.ofSource source = [.text [],
      .fault (.invalidCodePoint (String.ofList hex)) ⟨0, Text.byteLength source⟩] := by
    rw [Piece.ofSource, hsource, Piece.scan_marker_fault htext 0 false hclass, List.append_nil,
      Nat.zero_add]
  simp only [compile, Emitter.ofSource, htables, hscan, Emitter.addPieces]
  rfl

/-- Between `<:x` and `>` stand the code points: up to six digits of base sixteen, or up to five
behind a plus sign, with blanks on either side. A source that is one such marker is compiled to the
character alone and writes it; every other text that the marker can hold is the fault of the source,
which points at the whole marker. -/
theorem code_point_marker {hex : List Char}
    (hfree : ∀ d ∈ hex, d ≠ '>' ∧ d ∉ Text.Nesting.enclosing) {o : CompileOptions} {tables : Tables}
    (htables : Tables.declareParams {} o.params = .ok tables) (name : String) :
    let source := "<:x".toList ++ hex ++ ['>']
    (∀ c, CodePointText (Text.trim hex) c →
      ∃ p, compile name source o = .ok p ∧ p.instrs = [.action (.literal (String.singleton c))] ∧
        ∀ (t : Template) (w : World) (ro : RunOptions) (ctx : Context), t.toProgram = p →
          ctx.isFor t → (render w ro t ctx).1 = .ok (String.singleton c)) ∧
      ((∀ c, ¬CodePointText (Text.trim hex) c) →
        compile name source o =
          .error (.ofSpan name source ⟨0, Text.byteLength source⟩
            (.invalidCodePoint (String.ofList hex)))) :=
  ⟨fun _ hc => compile_codePoint hc htables name,
    fun hnone => compile_not_codePoint hfree hnone htables name⟩

/-- Six digits with blanks around them are a character, and half of a surrogate pair is none. -/
theorem code_point_marker_padded :
    let o : CompileOptions := { params := ["p"] }
    (∃ p, compile "t" "<:x\t01F600 >".toList o = .ok p ∧ p.instrs = [.action (.literal "😀")] ∧
      (render {} {} ⟨p, 0⟩ (.fresh ⟨p, 0⟩)).1 = .ok "😀") ∧
      compile "t" "<:xd83d>".toList o =
        .error ⟨"t", ⟨0, 8⟩, ⟨1, 1⟩, .invalidCodePoint "d83d"⟩ := by
  intro o
  have htables : ∃ tables, Tables.declareParams {} o.params = .ok tables := ⟨_, rfl⟩
  obtain ⟨tables, htables⟩ := htables
  constructor
  · have hc : CodePointText (Text.trim "\t01F600 ".toList) '😀' :=
      Marker.codePoint?_eq_some_iff.mp (by decide +kernel)
    have hfree : ∀ d ∈ "\t01F600 ".toList, d ≠ '>' ∧ d ∉ Text.Nesting.enclosing := by
      simp [Text.Nesting.enclosing]
    obtain ⟨p, hcompile, hinstrs, hrender⟩ := (code_point_marker hfree htables "t").1 _ hc
    exact ⟨p, hcompile, hinstrs, hrender ⟨p, 0⟩ {} {} _ rfl rfl⟩
  · have hfree : ∀ d ∈ "d83d".toList, d ≠ '>' ∧ d ∉ Text.Nesting.enclosing := by
      simp [Text.Nesting.enclosing]
    refine (code_point_marker hfree htables "t").2 fun c hc => ?_
    have hnone : Marker.codePoint? (Text.trim "d83d".toList) = none := by decide +kernel
    rw [Marker.codePoint?_eq_some_iff.mpr hc] at hnone
    cases hnone

/-- A plus sign is no digit, and the text behind it is read all the same. -/
theorem code_point_marker_signed :
    (∀ c, ¬Hexadecimal (Text.trim "+41".toList) c) ∧
      ∃ p, compile "t" "<:x+41>".toList {} = .ok p ∧ p.instrs = [.action (.literal "A")] := by
  refine ⟨fun c => Hexadecimal.not_signed, ?_⟩
  have hc : CodePointText (Text.trim "+41".toList) 'A' :=
    Marker.codePoint?_eq_some_iff.mp (by decide +kernel)
  have htables : ∃ tables, Tables.declareParams {} ({} : CompileOptions).params = .ok tables :=
    ⟨_, rfl⟩
  obtain ⟨tables, htables⟩ := htables
  obtain ⟨p, hcompile, hinstrs, -⟩ := compile_codePoint hc htables "t"
  exact ⟨p, hcompile, hinstrs⟩

end TemplateEngine

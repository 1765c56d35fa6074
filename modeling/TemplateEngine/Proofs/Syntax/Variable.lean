import TemplateEngine.Proofs.Nested.Layout
import TemplateEngine.Proofs.Syntax.Blanks
import TemplateEngine.Proofs.Syntax.Embedded

/-! Operands in variable markers. A variable marker has no keyword, so its operand stands where the
text of a comment would: if it begins with two minus signs, the marker ends as a comment does, at
the first `>`. -/
namespace TemplateEngine

open Text (byteLength)

namespace Expr

/-- An operand that begins as a comment does and has a `>` in it. -/
def LikeComment (e : List Char) : Prop :=
  ['-', '-'] <+: e ∧ '>' ∈ e

instance (e : List Char) : Decidable (LikeComment e) :=
  inferInstanceAs (Decidable (_ ∧ _))

end Expr

namespace Marker

/-- No directive has a text that begins like this. -/
theorem directive?_eq_none {c : Char} (h : c ∉ ['i', 'e', 'f', 's', 'c', 'd']) (rest : List Char) :
    directive? (c :: rest) = none := by
  have helse : Text.trimEnd (c :: rest) ≠ ['e', 'l', 's', 'e'] := by
    refine Embedding.not_otherwise fun heq => h ?_
    rw [(List.cons.inj heq).1]
    decide
  have hdebug : c ≠ 'd' := by
    rintro rfl
    exact h (by decide)
  simp only [List.mem_cons, List.not_mem_nil, or_false, not_or, eq_comm (a := c)] at h
  simp [directive?, Text.stripPrefix?, h, helse, hdebug]

theorem classify_comment (text : List Char) :
    classify .directive ('-' :: '-' :: text) = .ok (.layout .comment) := by
  rw [classify, directive?_eq_none (by decide)]
  rfl

end Marker

namespace Piece

section Marker

variable {opener : Opener} {body after : List Char}

theorem nextMarker_marker : nextMarker [] (opener.marker body ++ after) =
    ([], some (opener, body ++ '>' :: after)) := by
  simp [Opener.marker, nextMarker]

theorem byteLength_closed : byteLength (opener.marker body) = 2 + byteLength body + 1 :=
  byteLength_marker opener body []

variable (htext : markerText (body ++ '>' :: after) = some (body, after)) (start : Nat)
  (afterSkip : Bool)
include htext

theorem scan_marker_fault {f : Fault} (hf : Marker.classify opener body = .error f) :
    scan start afterSkip (opener.marker body ++ after) =
      [.text [], .fault f ⟨start, start + byteLength (opener.marker body)⟩] := by
  rw [scan_fault nextMarker_marker htext hf, byteLength_closed, Text.byteLength_nil]
  simp only [Nat.add_zero, Nat.add_assoc]

theorem scan_marker_directive {d : Directive}
    (hd : Marker.classify opener body = .ok (.directive d)) :
    let closed := start + byteLength (opener.marker body)
    scan start afterSkip (opener.marker body ++ after) =
      .text [] :: .directive d ⟨start, closed⟩ :: scan closed false after := by
  rw [scan_directive nextMarker_marker htext hd, byteLength_closed, Text.byteLength_nil]
  simp only [Nat.add_zero, Nat.add_assoc]

theorem scan_marker_layout {l : Layout} (hl : Marker.classify opener body = .ok (.layout l)) :
    let closed := start + byteLength (opener.marker body)
    scan start afterSkip (opener.marker body ++ after) =
      .text [] :: .text (l.text afterSkip) ::
        scan (closed + (byteLength after - byteLength (l.skip after))) (l == .skipSpace)
          (l.skip after) := by
  rw [scan_layout nextMarker_marker htext hl, byteLength_closed, Text.byteLength_nil]
  simp only [Nat.add_zero, Nat.add_assoc, List.isEmpty_nil, Bool.and_true]

end Marker

/-- The end of a marker does not make its text begin as a comment does. -/
theorem comment_append_iff {cs after : List Char} :
    ['-', '-'] <+: cs ++ '>' :: after ↔ ['-', '-'] <+: cs := by
  refine ⟨fun h => ?_, fun h => h.trans (List.prefix_append _ _)⟩
  obtain _ | ⟨c, _ | ⟨d, cs⟩⟩ := cs
  · simp at h
  · simp at h
  · simpa using h

/-- A text that begins as a comment does ends a marker at its first `>`. -/
theorem markerText_of_first {first : List Char} (hfirst : '>' ∉ first) {after : List Char}
    (h : ['-', '-'] <+: first ++ '>' :: after) :
    markerText (first ++ '>' :: after) = some (first, after) := by
  rw [markerText_of_comment h]
  exact Text.splitOnce_eq_some_iff.mpr ⟨rfl, hfirst⟩

theorem markerText_of_embeddable {e : List Char} (h : Expr.Embeddable e)
    (hlike : ¬Expr.LikeComment e) (after : List Char) :
    markerText (e ++ '>' :: after) = some (e, after) := by
  by_cases hcomment : ['-', '-'] <+: e ++ '>' :: after
  · have hfree : '>' ∉ e := fun hmem => hlike ⟨comment_append_iff.mp hcomment, hmem⟩
    exact markerText_of_first hfree hcomment
  · rw [markerText_of_not_comment hcomment]
    exact Text.cutAtTop_of_past (h.passed (.inr rfl)) after

theorem scan_variable_first {first rest : List Char} (hfirst : '>' ∉ first)
    (hcomment : ['-', '-'] <+: first ++ '>' :: rest) (start : Nat) (afterSkip : Bool)
    (after : List Char) :
    let closed := start + byteLength (Opener.variable.marker first)
    scan start afterSkip (Opener.variable.marker (first ++ '>' :: rest) ++ after) =
      .text [] :: .directive (.variable first) ⟨start, closed⟩ ::
        scan closed false (rest ++ '>' :: after) := by
  have hcut : Opener.variable.marker (first ++ '>' :: rest) ++ after =
      Opener.variable.marker first ++ (rest ++ '>' :: after) := by
    simp [Opener.marker]
  have htext : markerText (first ++ '>' :: (rest ++ '>' :: after)) =
      some (first, rest ++ '>' :: after) :=
    markerText_of_first hfirst (comment_append_iff.mpr (comment_append_iff.mp hcomment))
  rw [hcut]
  exact scan_marker_directive htext start afterSkip rfl

theorem scan_variable_iff {e : List Char} (h : Expr.Embeddable e) (start : Nat) (afterSkip : Bool)
    (after : List Char) :
    let closed := start + byteLength (Opener.variable.marker e)
    scan start afterSkip (Opener.variable.marker e ++ after) =
        .text [] :: .directive (.variable e) ⟨start, closed⟩ :: scan closed false after ↔
      ¬Expr.LikeComment e := by
  refine ⟨?_, fun hlike => ?_⟩
  · rintro hscan ⟨hcomment, hmem⟩
    obtain ⟨first, rest, rfl, hfirst⟩ := List.eq_append_cons_of_mem hmem
    rw [scan_variable_first hfirst hcomment] at hscan
    simp at hscan
  · exact scan_marker_directive (markerText_of_embeddable h hlike after) start afterSkip rfl

theorem scan_nil (start : Nat) (afterSkip : Bool) : scan start afterSkip [] = [.text []] := by
  rw [scan_eq]
  rfl

theorem scan_comment {text : List Char} (h : '>' ∉ text) (start : Nat) (afterSkip : Bool)
    (after : List Char) :
    let marker := Opener.directive.marker ('-' :: '-' :: text)
    scan start afterSkip (marker ++ after) =
      .text [] :: .text [] :: scan (start + byteLength marker) false after := by
  have htext : markerText ('-' :: '-' :: text ++ '>' :: after) = some ('-' :: '-' :: text, after) :=
    markerText_of_first (by simpa using h) ⟨_, rfl⟩
  have hskip : Layout.skip .comment after = after := rfl
  have hscan := scan_marker_layout htext start afterSkip (Marker.classify_comment text)
  rw [hskip, Nat.sub_self] at hscan
  exact hscan

end Piece

/-! What a variable marker is compiled to. -/

theorem Lowering.ofText_of_parse {e : List Char} {ast : Expr.Ast} (h : Expr.parse e = .ok ast)
    (names : Names) (arena : Arena) :
    ofText names arena e = .ok ((operandOf names (Text.trim e) ast).run { arena }) := by
  simp only [ofText, Expr.parse_trim, h]

namespace Tables

/-- The operand with the text `e` and the tree `ast`, lowered where these tables have come to. -/
def lower (o : CompileOptions) (t : Tables) (e : List Char) (ast : Expr.Ast) :
    Operand × Lowering :=
  (Lowering.operandOf ⟨t.slots, o.constants⟩ (Text.trim e) ast).run { arena := t.arena }

/-- What writing an operand has been laid out as, if nothing but that has been laid out. -/
def writing (t : Tables) (lowered : Operand × Lowering) : Emitter where
  tables := { t with arena := lowered.2.arena }
  instrs := ((if lowered.2.unknown.isEmpty then [.variable lowered.1]
    else notes lowered.2.unknown).map Instr.action).toArray

theorem write_of_parse {e : List Char} {ast : Expr.Ast} (h : Expr.parse e = .ok ast)
    (o : CompileOptions) (t : Tables) :
    t.write o e =
      let lowered := t.lower o e ast
      .ok (if lowered.2.unknown.isEmpty then [.variable lowered.1] else notes lowered.2.unknown,
        { t with arena := lowered.2.arena }) := by
  simp only [write, operand, Lowering.ofText_of_parse h]
  rfl

end Tables

theorem Emitter.ofSource_variable {e : List Char} (h : Expr.Embeddable e)
    (hlike : ¬Expr.LikeComment e) {o : CompileOptions} {tables : Tables}
    (htables : Tables.declareParams {} o.params = .ok tables) {ast : Expr.Ast}
    (hast : Expr.parse e = .ok ast) (after : List Char) :
    let marker := Opener.variable.marker e
    ofSource o (marker ++ after) =
      addPieces o (tables.writing (tables.lower o e ast))
        (Piece.scan (byteLength marker) false after) >>= (·.finish (marker ++ after)) := by
  intro marker
  have hscan : Piece.ofSource (marker ++ after) =
      .text [] :: .directive (.variable e) ⟨0, byteLength marker⟩ ::
        Piece.scan (byteLength marker) false after := by
    have hscan := (Piece.scan_variable_iff h 0 false after).mpr hlike
    rwa [Nat.zero_add] at hscan
  have hwritten : (({ tables } : Emitter).addText []).directive o ⟨0, byteLength marker⟩
      (.variable e) = .ok (tables.writing (tables.lower o e ast)) := by
    have hflush : (({ tables } : Emitter).addText []).flush = { tables } := rfl
    have htext : (({ tables } : Emitter).addText []).tables = tables := rfl
    rw [directive, htext, Tables.write_of_parse hast, perform, hflush]
    simp [bind, Except.bind, pure, Except.pure, emitAll_eq, Tables.writing]
  simp only [ofSource, htables, hscan, addPieces, hwritten]

theorem compile_variable {e : List Char} (h : Expr.Embeddable e)
    (hlike : ¬Expr.LikeComment e) {o : CompileOptions} {tables : Tables}
    (htables : Tables.declareParams {} o.params = .ok tables) {ast : Expr.Ast}
    (hast : Expr.parse e = .ok ast) (name : String) :
    compile name (Opener.variable.marker e) o =
      .ok ((tables.writing (tables.lower o e ast)).program name o) := by
  have hlaid := Emitter.ofSource_variable h hlike htables hast []
  simp only [List.append_nil] at hlaid
  rw [compile, hlaid, Piece.scan_nil]
  rfl

/-- A variable marker with an operand ends where it was meant to end, if the operand is not like a
comment, and only then; else it ends at the first `>` of the operand. One that ends where it was
meant to end is compiled to its operand, whatever comes after it. Comments end at the first `>`. -/
theorem variable_marker {e : List Char} (h : Expr.Embeddable e) (start : Nat) (afterSkip : Bool)
    (after : List Char) :
    let marker := Opener.variable.marker e
    let closed := start + byteLength marker
    (Piece.scan start afterSkip (marker ++ after) =
        .text [] :: .directive (.variable e) ⟨start, closed⟩ :: Piece.scan closed false after ↔
      ¬Expr.LikeComment e) ∧
    (∀ first rest, e = first ++ '>' :: rest → '>' ∉ first → ['-', '-'] <+: e →
      let closed := start + byteLength (Opener.variable.marker first)
      Piece.scan start afterSkip (marker ++ after) =
        .text [] :: .directive (.variable first) ⟨start, closed⟩ ::
          Piece.scan closed false (rest ++ '>' :: after)) ∧
    (¬Expr.LikeComment e → ∀ o tables ast, Tables.declareParams {} o.params = .ok tables →
      Expr.parse e = .ok ast →
      let written := tables.writing (tables.lower o e ast)
      Emitter.ofSource o (marker ++ after) =
          written.addPieces o (Piece.scan (byteLength marker) false after) >>=
            (·.finish (marker ++ after)) ∧
        ∀ name, compile name marker o = .ok (written.program name o)) ∧
    ∀ text, '>' ∉ text →
      let comment := Opener.directive.marker ('-' :: '-' :: text)
      Piece.scan start afterSkip (comment ++ after) =
        .text [] :: .text [] :: Piece.scan (start + byteLength comment) false after := by
  refine ⟨Piece.scan_variable_iff h start afterSkip after, ?_, ?_, ?_⟩
  · rintro first rest rfl hfirst hcomment
    exact Piece.scan_variable_first hfirst hcomment start afterSkip after
  · intro hlike o tables ast htables hast
    exact ⟨Emitter.ofSource_variable h hlike htables hast after,
      compile_variable h hlike htables hast⟩
  · intro text htext
    exact Piece.scan_comment htext start afterSkip after

/-- An operand that holds a `>` in a string behind an escaped quote and in the arguments of a call,
and begins with prefix operators, but not with two minus signs. -/
theorem variable_marker_nested :
    let e := "!-a['\\'>\"'].f((b > 1), \"é>\")".toList
    let marker := Opener.variable.marker e
    let closed := 7 + byteLength marker
    Expr.Embeddable e ∧ ¬Expr.LikeComment e ∧
      Piece.scan 7 true (marker ++ ">rest".toList) =
        .text [] :: .directive (.variable e) ⟨7, closed⟩ ::
          Piece.scan closed false ">rest".toList ∧
      (compile "t" marker {}).isOk := by
  intro e marker closed
  have hembeddable : Expr.Embeddable e := by decide +kernel
  have hlike : ¬Expr.LikeComment e := by decide
  obtain ⟨hscan, -, hcompile, -⟩ := variable_marker hembeddable 7 true ">rest".toList
  have hread : (Expr.parse e).isOk := hembeddable.read
  refine ⟨hembeddable, hlike, hscan.mpr hlike, ?_⟩
  cases hast : Expr.parse e with
  | error reason => rw [hast] at hread; cases hread
  | ok ast =>
    obtain ⟨-, hcompiled⟩ := hcompile hlike {} {} ast rfl hast
    rw [hcompiled]
    rfl

/-- Two minus signs before a variable begin a marker as a comment begins, and a `>` in a string then
ends it, in the middle of its operand. -/
theorem variable_marker_cut_short :
    let e := "--m[\">\"]".toList
    Expr.Embeddable e ∧
      Piece.ofSource (Opener.variable.marker e) =
        [.text [], .directive (.variable "--m[\"".toList) ⟨0, 8⟩, .text "\"]>".toList] ∧
      (compile "t" (Opener.variable.marker e) { params := ["m"] }).isOk = false := by
  intro e
  have hcomment : ['-', '-'] <+: "--m[\"".toList ++ '>' :: "\"]".toList := by decide
  have hscan := Piece.scan_variable_first (by decide) hcomment 0 false []
  have hrest : Piece.scan 8 false "\"]>".toList = [.text "\"]>".toList] := by
    rw [Piece.scan_eq]
    rfl
  refine ⟨by decide +kernel, ?_, by decide +kernel⟩
  rw [← hrest]
  exact hscan

end TemplateEngine

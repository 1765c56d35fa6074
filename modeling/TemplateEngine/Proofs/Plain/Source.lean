import TemplateEngine.Proofs.Lockstep.Basic
import TemplateEngine.Proofs.Plain.Hexadecimal
import TemplateEngine.Proofs.Syntax.Variable

/-! Sources without directives: plain text, escapes, comments and skips. Which text such a source
stands for is said marker by marker; reading the source from left to right comes to the same. -/
namespace TemplateEngine

/-- No marker opens in this text. -/
def Unopened (cs : List Char) : Prop :=
  ∀ opener : Opener, ¬['<', opener.char] <:+: cs

theorem unopened_iff {cs : List Char} : Unopened cs ↔
    ¬['<', '&'] <:+: cs ∧ ¬['<', ':'] <:+: cs ∧ ¬['<', '.'] <:+: cs := by
  refine ⟨fun h => ⟨h .variable, h .directive, h .closer⟩, ?_⟩
  rintro ⟨hvariable, hdirective, hcloser⟩ opener
  cases opener
  · exact hvariable
  · exact hdirective
  · exact hcloser

instance (cs : List Char) : Decidable (Unopened cs) :=
  decidable_of_iff _ unopened_iff.symm

/-- What stands between the opening and the closing of a layout marker. -/
inductive Layout.Written : Layout → List Char → Prop where
  | skipSpace : Written .skipSpace [' ']
  | skipNewline : Written .skipNewline ['?', 'n', 'l']
  | skipBlanks : Written .skipBlanks ['?', ' ']
  | lineFeed : Written (.character '\n') ['n']
  | carriageReturn : Written (.character '\r') ['r']
  | tab : Written (.character '\t') ['t']
  | space : Written (.character ' ') ['s']
  | codePoint {hex : List Char} {c : Char} : Marker.codePoint? (Text.trim hex) = some c →
    Written (.character c) ('x' :: hex)
  | comment {text : List Char} : '>' ∉ text → Written .comment ('-' :: '-' :: text)

/-- A layout marker and the plain text between it and the next marker. -/
structure LayoutPart where
  body : List Char
  layout : Layout
  after : List Char
  written : layout.Written body
  plain : Unopened after

namespace LayoutPart

def source (p : LayoutPart) : List Char :=
  Opener.directive.marker p.body ++ p.after

/-- Whether the part is a skip of all blanks with nothing but blanks after it. -/
def isBlankSkip (p : LayoutPart) : Bool :=
  p.layout == .skipSpace && Text.isAllBlank p.after

/-- The text that a part stands for, which comes after another part or is the first one. -/
def text (previous : Option LayoutPart) (p : LayoutPart) : List Char :=
  match p.layout with
  | .character c => c :: p.after
  | .comment => p.after
  | .skipSpace => (if previous.any isBlankSkip then [' '] else []) ++ Text.trimStart p.after
  | .skipNewline => Text.dropLineBreak p.after
  | .skipBlanks => p.after.dropWhile fun c => c == ' ' || c == '\t'

/-- The text of parts, the first of which comes after `previous`. -/
def texts (previous : Option LayoutPart) : List LayoutPart → List Char
  | [] => []
  | p :: rest => p.text previous ++ texts (some p) rest

end LayoutPart

/-- A source with no other markers than layout markers. -/
structure PlainSource where
  lead : List Char
  parts : List LayoutPart := []
  plain : Unopened lead

namespace PlainSource

def source (s : PlainSource) : List Char :=
  s.lead ++ s.parts.flatMap LayoutPart.source

def text (s : PlainSource) : List Char :=
  s.lead ++ LayoutPart.texts none s.parts

end PlainSource

theorem Unopened.later {first rest : List Char} (h : Unopened (first ++ rest)) : Unopened rest :=
  fun opener hmem => h opener (hmem.trans (List.suffix_append first rest).isInfix)

theorem Unopened.skip {cs : List Char} (h : Unopened cs) (l : Layout) : Unopened (l.skip cs) := by
  obtain ⟨skipped, hcs⟩ := l.exists_skipped cs
  rw [hcs] at h
  exact h.later

/-! The markers are found where they were written, and are what they were written as. -/

namespace Piece

theorem nextMarker_cons_unopened {c : Char} {cs rest : List Char} (h : Unopened (c :: cs))
    (hrest : ∀ d ∈ rest.head?, d = '<') (seen : List Char) :
    nextMarker seen (c :: (cs ++ rest)) = nextMarker (c :: seen) (cs ++ rest) := by
  by_cases hc : c = '<'
  · subst hc
    cases hnext : cs ++ rest with
    | nil => rfl
    | cons d more =>
      apply nextMarker_of_text
      cases hd : Opener.ofChar? d with
      | none => rfl
      | some opener =>
        obtain rfl := Opener.char_of_ofChar? hd
        cases cs with
        | nil =>
          rw [List.nil_append] at hnext
          have hless : opener.char = '<' := hrest _ (by rw [hnext]; rfl)
          rw [hless] at hd
          cases hd
        | cons e cs =>
          obtain ⟨rfl, -⟩ := List.cons.inj hnext
          exact absurd ⟨[], cs, rfl⟩ (h opener)
  · exact nextMarker_of_ne hc

/-- The search for a marker passes a text in which none opens. -/
theorem nextMarker_of_unopened {cs rest : List Char} (h : Unopened cs)
    (hrest : ∀ d ∈ rest.head?, d = '<') (seen : List Char) :
    nextMarker seen (cs ++ rest) = nextMarker (cs.reverse ++ seen) rest := by
  induction cs generalizing seen with
  | nil => rfl
  | cons c cs ih =>
    have h' : Unopened ([c] ++ cs) := h
    rw [List.cons_append, nextMarker_cons_unopened h hrest, ih h'.later, List.reverse_cons,
      List.append_assoc]
    rfl

end Piece

namespace Marker

theorem classify_codePoint (hex : List Char) :
    classify .directive ('x' :: hex) =
      match codePoint? (Text.trim hex) with
      | some c => .ok (.layout (.character c))
      | none => .error (.invalidCodePoint (String.ofList hex)) := by
  have hlayout : layout? ('x' :: hex) = none := by simp [layout?, Text.stripPrefix?]
  cases hcode : codePoint? (Text.trim hex) <;>
    simp [classify, directive?_eq_none, hlayout, Text.stripPrefix?, hcode]

theorem not_delimiter_of_codePoint? {hex : List Char} {c : Char}
    (h : codePoint? (Text.trim hex) = some c) : ∀ d ∈ hex, d ∉ Text.Nesting.delimiters := by
  intro d hd
  cases hblank : Text.isBlank d with
  | true => exact Expr.not_delimiter_of_isBlank hblank
  | false =>
    exact (codePoint?_eq_some_iff.mp h).not_delimiter d ((Text.mem_trim hblank).mpr hd)

end Marker

namespace Layout.Written

variable {l : Layout} {body : List Char} (h : l.Written body)
include h

theorem classify : Marker.classify .directive body = .ok (.layout l) := by
  cases h with
  | comment htext => exact Marker.classify_comment _
  | codePoint hcode => rw [Marker.classify_codePoint, hcode]
  | _ => rfl

/-- Nothing in a layout marker could end it early. -/
theorem markerText (after : List Char) :
    Piece.markerText (body ++ '>' :: after) = some (body, after) := by
  have hplain (hcomment : ¬['-', '-'] <+: body) (hbody : ∀ d ∈ body, d ∉ Text.Nesting.delimiters) :
      Piece.markerText (body ++ '>' :: after) = some (body, after) := by
    rw [Piece.markerText_of_not_comment (mt Piece.comment_append_iff.mp hcomment)]
    exact Text.cutAtTop_of_past (Text.Nesting.past_of_not_delimiter (by decide) hbody) after
  cases h with
  | comment htext => exact Piece.markerText_of_first (by simpa using htext) ⟨_, rfl⟩
  | codePoint hcode =>
    refine hplain (by simp) (List.forall_mem_cons.mpr ⟨by decide, ?_⟩)
    exact Marker.not_delimiter_of_codePoint? hcode
  | _ => exact hplain (by decide) (by simp [Text.Nesting.delimiters])

end Layout.Written

/-- What a skip leaves of the text after it does not depend on the markers that follow. -/
theorem LayoutPart.skip_append (p : LayoutPart) (parts : List LayoutPart) :
    p.layout.skip (p.after ++ parts.flatMap source) =
      p.layout.skip p.after ++ parts.flatMap source := by
  cases parts with
  | nil => simp
  | cons next more => exact p.layout.skip_append p.after _

theorem Text.isAllBlank_eq (cs : List Char) : isAllBlank cs = (trimStart cs).isEmpty := by
  cases hstart : trimStart cs with
  | nil =>
    rw [isAllBlank, trim, hstart]
    rfl
  | cons c rest =>
    have hc : isBlank c = false := by
      have hhead := List.head?_dropWhile_not isBlank cs
      rw [← trimStart, hstart] at hhead
      exact hhead
    have hstart' : c ∈ trimStart cs := by
      rw [hstart]
      exact List.mem_cons_self
    have hmem : c ∈ cs := (List.dropWhile_sublist isBlank).subset hstart'
    have hne : trim cs ≠ [] := List.ne_nil_of_mem ((mem_trim hc).mpr hmem)
    simp [isAllBlank, hne]

theorem LayoutPart.text_eq (p : LayoutPart) (previous : Option LayoutPart) :
    p.text previous =
      p.layout.text (previous.any isBlankSkip) ++ p.layout.skip p.after := by
  unfold LayoutPart.text
  cases p.layout <;> rfl

theorem LayoutPart.isBlankSkip_eq (p : LayoutPart) :
    p.isBlankSkip = (p.layout == .skipSpace && (p.layout.skip p.after).isEmpty) := by
  unfold isBlankSkip
  cases p.layout with
  | skipSpace => rw [Text.isAllBlank_eq, Layout.skip]
  | _ => rfl

/-- From a text on in which no marker opens, all pieces are text, and together they are what the
parts stand for. The first part sees whether the text is nothing after a skip. -/
theorem Piece.scan_parts (parts : List LayoutPart) (previous : Option LayoutPart)
    {cs : List Char} (hcs : Unopened cs) {afterSkip : Bool}
    (hskip : (afterSkip && cs.isEmpty) = previous.any LayoutPart.isBlankSkip) (start : Nat) :
    ∃ texts : List (List Char),
      scan start afterSkip (cs ++ parts.flatMap LayoutPart.source) = texts.map .text ∧
        texts.flatten = cs ++ LayoutPart.texts previous parts := by
  induction parts generalizing previous cs afterSkip start with
  | nil =>
    have hnext : nextMarker [] cs = (cs, none) := by
      have hend : ∀ d ∈ ([] : List Char).head?, d = '<' := nofun
      have hpassed := nextMarker_of_unopened hcs hend []
      rwa [List.append_nil, List.append_nil, nextMarker, List.reverse_reverse] at hpassed
    refine ⟨[cs], ?_, by simp [LayoutPart.texts]⟩
    rw [List.flatMap_nil, List.append_nil, scan_eq, hnext]
    rfl
  | cons p rest ih =>
    have hsource : (p :: rest).flatMap LayoutPart.source =
        '<' :: ':' :: (p.body ++ '>' :: (p.after ++ rest.flatMap LayoutPart.source)) := by
      simp [LayoutPart.source, Opener.marker, Opener.char]
    have hnext : nextMarker [] (cs ++ (p :: rest).flatMap LayoutPart.source) =
        (cs, some (.directive, p.body ++ '>' :: (p.after ++ rest.flatMap LayoutPart.source))) := by
      rw [hsource, nextMarker_of_unopened hcs (by simp)]
      simp [nextMarker, Opener.ofChar?]
    obtain ⟨texts, hscan, htexts⟩ := ih (some p) (p.plain.skip p.layout) p.isBlankSkip_eq.symm _
    refine ⟨cs :: p.layout.text (afterSkip && cs.isEmpty) :: texts, ?_, ?_⟩
    · rw [scan_layout hnext (p.written.markerText _) p.written.classify]
      dsimp only
      rw [p.skip_append, hscan]
      rfl
    · rw [List.flatten_cons, List.flatten_cons, htexts, LayoutPart.texts, p.text_eq, hskip]
      simp

namespace Emitter

theorem addPieces_texts (o : CompileOptions) (e : Emitter) (texts : List (List Char)) :
    addPieces o e (texts.map .text) = .ok (e.addText texts.flatten) := by
  induction texts generalizing e with
  | nil => simp [addPieces, addText]
  | cons cs rest ih => simp [addPieces, ih, addText]

end Emitter

namespace PlainSource

variable (s : PlainSource)

/-- The program that writes the text of the source: nothing, or a single literal. -/
def instrs : List Instr :=
  if s.text.isEmpty then [] else [.action (.literal (String.ofList s.text))]

theorem compile_eq {o : CompileOptions} {tables : Tables}
    (htables : Tables.declareParams {} o.params = .ok tables) (name : String) :
    compile name s.source o =
      .ok (({ tables, instrs := s.instrs.toArray } : Emitter).program name o) := by
  obtain ⟨texts, hscan, htexts⟩ : ∃ texts : List (List Char),
      Piece.ofSource s.source = texts.map .text ∧ texts.flatten = s.text :=
    Piece.scan_parts s.parts none s.plain rfl 0
  have hlaid : Emitter.ofSource o s.source = .ok { tables, instrs := s.instrs.toArray } := by
    have hfinish (e : Emitter) (he : e.blocks = []) : e.finish s.source = .ok e.flush := by
      rw [Emitter.finish, he]
    have hflush : (({ tables } : Emitter).addText s.text).flush =
        { tables, instrs := s.instrs.toArray } := by
      rw [Emitter.flush, instrs]
      cases htext : s.text with
      | nil => rfl
      | cons c rest => rfl
    simp only [Emitter.ofSource, htables, hscan, Emitter.addPieces_texts, htexts]
    rw [← hflush]
    exact hfinish (({ tables } : Emitter).addText s.text) rfl
  rw [compile, hlaid]

/-- A program of this kind writes its text and nothing else. -/
theorem render_eq {t : Template} (ht : t.instrs = s.instrs) (w : World) (o : RunOptions)
    {c : Context} (hc : c.isFor t) : (render w o t c).1 = .ok (String.ofList s.text) := by
  have hwalk (f : Frame) (enter : Enter TextSink) :
      (f.walk enter 0 t.instrs).run.run { context := c, sink := {} } =
        (.ok (), { context := c, sink := { text := String.ofList s.text } }) := by
    rw [ht, instrs]
    cases htext : s.text with
    | nil =>
      rw [List.isEmpty_nil, if_pos rfl, Frame.walk_nil]
      rfl
    | cons d rest =>
      rw [List.isEmpty_cons, if_neg Bool.false_ne_true, Frame.walk_action, Frame.walk_nil,
        Frame.act, Run.run_bind, Run.run_emit]
      dsimp only [Sink.write, TextSink.write]
      rw [String.empty_append]
      rfl
  have hrun (depth : Nat) :
      (runTemplate w o depth [t.name] t).run.run { context := c, sink := ({} : TextSink) } =
        (.ok (), { context := c, sink := { text := String.ofList s.text } }) := by
    cases depth with
    | zero => exact hwalk _ _
    | succ depth => exact hwalk _ _
  rw [render, run, Outcome.inContext, if_pos hc, hrun]
  rfl

/-- A source without any markers stands for itself. -/
theorem text_of_unopened (h : Unopened s.source) : s.text = s.source := by
  unfold text source at *
  cases hparts : s.parts with
  | nil => simp [LayoutPart.texts]
  | cons p rest =>
    rw [hparts] at h
    refine absurd ?_ (h .directive)
    exact ⟨s.lead, p.body ++ '>' :: (p.after ++ rest.flatMap LayoutPart.source), by
      simp [LayoutPart.source, Opener.marker]⟩

end PlainSource

/-- A source without directives is compiled to nothing if it stands for no text, and else to one
literal, and its text is what is written in whichever context it is run. A source without any
markers stands for itself. -/
theorem plain_source (s : PlainSource) {o : CompileOptions} {tables : Tables}
    (htables : Tables.declareParams {} o.params = .ok tables) (name : String) :
    (∃ p, compile name s.source o = .ok p ∧
      p.instrs = (if s.text.isEmpty then [] else [.action (.literal (String.ofList s.text))]) ∧
      ∀ (t : Template) (w : World) (ro : RunOptions) (c : Context), t.toProgram = p → c.isFor t →
        (render w ro t c).1 = .ok (String.ofList s.text)) ∧
      (Unopened s.source → s.text = s.source) := by
  refine ⟨⟨_, s.compile_eq htables name, rfl, ?_⟩, s.text_of_unopened⟩
  rintro t w ro c ht hc
  exact s.render_eq (congrArg (·.instrs) ht) w ro hc

/-- Of two skips with a blank line between them the second one is a space; the line break after the
third marker is gone, and the blank after the comment is not. -/
theorem plain_source_skips :
    let s : PlainSource := {
      lead := "a <".toList
      parts := [
        ⟨" ".toList, .skipSpace, " \n".toList, .skipSpace, by decide⟩,
        ⟨" ".toList, .skipSpace, " b ".toList, .skipSpace, by decide⟩,
        ⟨"?nl".toList, .skipNewline, "\n\nc".toList, .skipNewline, by decide⟩,
        ⟨"--'\"(".toList, .comment, " ".toList, .comment (by decide), by decide⟩,
        ⟨"x 41".toList, .character 'A', [], .codePoint (by decide), by decide⟩]
      plain := by decide }
    s.source = "a <<: > \n<: > b <:?nl>\n\nc<:--'\"(> <:x 41>".toList ∧
      s.text = "a < b \nc A".toList ∧
      ∃ p, compile "t" s.source {} = .ok p ∧ p.instrs = [.action (.literal "a < b \nc A")] ∧
        (render {} {} ⟨p, 0⟩ (.fresh ⟨p, 0⟩)).1 = .ok "a < b \nc A" := by
  intro s
  have htext : s.text = "a < b \nc A".toList := by decide
  obtain ⟨⟨p, hcompile, hinstrs, hrender⟩, -⟩ := plain_source s (o := {}) rfl "t"
  rw [htext] at hinstrs hrender
  exact ⟨by decide, htext, p, hcompile, hinstrs, hrender ⟨p, 0⟩ {} {} _ rfl rfl⟩

end TemplateEngine

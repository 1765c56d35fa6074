import TemplateEngine.Proofs.Faults.Marker
import TemplateEngine.Proofs.Segments.Read
import TemplateEngine.Proofs.Segments.Written

/-! Errors of a file of segments. They are those of the first segment that does not compile, and
point to the same text in the file as they do in the body of the segment. -/
namespace TemplateEngine

/-- All segments before this one compile, but this one does not. The error is told by its place in
the body. -/
structure Segment.FailsFirst (c : Catalog) (o : ReadOptions) (source : List Char)
    (segments : List Segment) (s : Segment) (e : Malformed) : Prop where
  compiled : ∃ before after c' known, segments = before ++ s :: after ∧
    readSegments source o (segments.map Segment.name) c.reserve.2 c.reserve.1 {} before =
      .ok (c', known) ∧
    compile s.name s.body (o.forSegment (segments.map Segment.name) c.reserve.2 known s) = .error e

/-- An error of the body of a segment, and the same error in the file: it points to the same text,
and its line and column are those of the file wherever they are told. -/
structure Malformed.Moved (s : Segment) (source : List Char) (e e' : Malformed) : Prop where
  template : e'.template = e.template
  span : e'.span = e.span.shift s.offset
  position : e'.position = .ofOffset source e'.span.start
  fault : e'.fault =
    match e.fault with
    | .unclosedBlock kind _ => .unclosedBlock kind e'.position
    | fault => fault
  text : ∃ text, e.span.Holds s.body text ∧ e'.span.Holds source text

variable {o : ReadOptions} {names : List String} {id : RegistryId} {source : List Char}

theorem Malformed.Moved.eq_rebase {s : Segment} {e e' : Malformed} (h : e.Moved s source e') :
    e' = e.rebase s.offset source := by
  obtain ⟨template, span, position, fault⟩ := e'
  obtain ⟨htemplate, hspan, hposition, hfault, -⟩ := h
  dsimp only at htemplate hspan hposition hfault
  subst htemplate hspan hposition hfault
  rfl

theorem readSegments_eq_error_iff {c : Catalog} {known : Registry} {segments : List Segment}
    {e' : Malformed} :
    readSegments source o names id c known segments = .error e' ↔
      ∃ before s after c' known' e, segments = before ++ s :: after ∧
        readSegments source o names id c known before = .ok (c', known') ∧
        compile s.name s.body (o.forSegment names id known' s) = .error e ∧
        e' = e.rebase s.offset source := by
  constructor
  · intro h
    induction segments generalizing c known with
    | nil => cases h
    | cons s rest ih =>
      rw [readSegments] at h
      split at h
      · next e he =>
        cases h
        exact ⟨[], s, rest, c, known, e, rfl, rfl, he, rfl⟩
      · next p hp =>
        obtain ⟨before, s', after, c', known', e, rfl, hbefore, he, rfl⟩ := ih h
        refine ⟨s :: before, s', after, c', known', e, rfl, ?_, he, rfl⟩
        rw [readSegments, hp]
        exact hbefore
  · rintro ⟨before, s, after, c', known', e, rfl, hbefore, he, rfl⟩
    rw [readSegments_append, hbefore]
    change readSegments source o names id c' known' (s :: after) = _
    rw [readSegments, he]

section Files

variable {c : Catalog} {sourceName : String} {segments : List Segment} {e' : Malformed}
  (hsplit : splitSegments sourceName source = .ok segments)
include hsplit

theorem readTemplates_eq_error_iff :
    readTemplates c sourceName source o = .error e' ↔
      readSegments source o (segments.map Segment.name) c.reserve.2 c.reserve.1 {} segments =
        .error e' := by
  rw [readTemplates, hsplit]
  change (readSegments source o (segments.map Segment.name) c.reserve.2 c.reserve.1 {} segments >>=
    _) = _ ↔ _
  cases readSegments source o (segments.map Segment.name) c.reserve.2 c.reserve.1 {} segments with
  | error e =>
    constructor <;>
      · rintro ⟨⟩
        rfl
  | ok r => exact ⟨nofun, nofun⟩

/-- The body of a segment stands in the file where it is said to be. -/
theorem moved_rebase {s : Segment} (hs : s ∈ segments) {o : CompileOptions} {e : Malformed}
    (he : compile s.name s.body o = .error e) : e.Moved s source (e.rebase s.offset source) := by
  obtain ⟨text, hholds, -⟩ := (points_of_compile he).text
  obtain ⟨before, after, hbody, hoffset⟩ := ((splits_of_splitSegments hsplit).cutFrom.body s hs).2
  refine ⟨rfl, rfl, rfl, rfl, text, hholds, ?_⟩
  rw [Malformed.rebase, ← hoffset, hbody]
  exact hholds.shift before after

end Files

/-- An error of a source points to what it is about. A file that can be cut into segments is refused
exactly if the body of a segment does not compile under its options, with the error of the first
such segment moved to its place in the file. -/
theorem errors_point :
    (∀ (name : String) (source : List Char) (o : CompileOptions) (e : Malformed),
      compile name source o = .error e → e.Points name o source) ∧
    ∀ (sourceName : String) (source : List Char) (segments : List Segment),
      splitSegments sourceName source = .ok segments →
        ∀ (c : Catalog) (o : ReadOptions) (e' : Malformed),
          readTemplates c sourceName source o = .error e' ↔
            ∃ (s : Segment) (e : Malformed),
              s.FailsFirst c o source segments e ∧ e.Moved s source e' := by
  refine ⟨fun _ _ _ _ => points_of_compile, fun sourceName source segments hsplit c o e' => ?_⟩
  rw [readTemplates_eq_error_iff hsplit, readSegments_eq_error_iff]
  constructor
  · rintro ⟨before, s, after, c', known, e, hsegments, hbefore, he, rfl⟩
    have hs : s ∈ segments := hsegments ▸ List.mem_append_right _ List.mem_cons_self
    exact ⟨s, e, ⟨before, after, c', known, hsegments, hbefore, he⟩, moved_rebase hsplit hs he⟩
  · rintro ⟨s, e, ⟨before, after, c', known, hsegments, hbefore, he⟩, hmoved⟩
    exact ⟨before, s, after, c', known, e, hsegments, hbefore, he, hmoved.eq_rebase⟩

/-- A line break of two characters after the header, a character of two bytes before the marker, and
a block that is not closed. -/
theorem errors_point_unclosed :
    let body := "é<:if:x>".toList
    let file := "<:otx:a:x>\r\né<:if:x>\r\n<.otx>".toList
    (∃ e, compile "a" body { params := ["x"] } = .error e ∧ e.span = ⟨2, 9⟩ ∧
      e.Points "a" { params := ["x"] } body) ∧
    ∃ segments e', splitSegments "f" file = .ok segments ∧
      readTemplates {} "f" file {} = .error e' ∧ e'.span = ⟨14, 21⟩ ∧ e'.position = ⟨2, 2⟩ ∧
      ∃ (s : Segment) (e : Malformed), s.FailsFirst {} {} file segments e ∧ e.Moved s file e' := by
  intro body file
  have hbody : ((compile "a" body { params := ["x"] }).mapError (·.span)).map (fun _ => ()) =
      .error ⟨2, 9⟩ := by
    decide +kernel
  have hfile : ((readTemplates {} "f" file {}).mapError fun e => (e.span, e.position)).map
      (fun _ => ()) = .error (⟨14, 21⟩, ⟨2, 2⟩) := by
    decide +kernel
  have hsegments : (splitSegments "f" file).toOption.isSome = true := by decide +kernel
  obtain ⟨segments, hsplit⟩ := Option.isSome_iff_exists.mp hsegments
  replace hsplit := eq_ok_of_toOption hsplit
  constructor
  · cases he : compile "a" body { params := ["x"] } with
    | error e =>
      rw [he] at hbody
      exact ⟨e, rfl, Except.error.inj hbody, errors_point.1 _ _ _ _ he⟩
    | ok p =>
      rw [he] at hbody
      cases hbody
  · cases he' : readTemplates {} "f" file {} with
    | error e' =>
      rw [he'] at hfile
      obtain ⟨hspan, hposition⟩ := Prod.mk.inj (Except.error.inj hfile)
      exact ⟨segments, e', hsplit, rfl, hspan, hposition,
        (errors_point.2 _ _ _ hsplit {} {} e').mp he'⟩
    | ok r =>
      rw [he'] at hfile
      cases hfile

end TemplateEngine

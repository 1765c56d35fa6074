import TemplateEngine.Malformed
import TemplateEngine.Text.Split

/-! Cutting a source file into its named segments. Text between segments is not part of any. -/
namespace TemplateEngine

/-- A template as it stands in a file: `offset` is the byte at which its body starts. -/
structure Segment where
  name : String
  params : List String
  body : List Char
  offset : Nat
  deriving DecidableEq, Repr

namespace Segment

def opening : List Char := "<:otx:".toList

def closing : List Char := "<.otx>".toList

def readParams : List (List Char) → Except HeaderError (List String)
  | [] => .ok []
  | p :: rest =>
    if Text.isName p then (readParams rest).map (String.ofList p :: ·)
    else .error (.parameterName (String.ofList p))

/-- A name, and after a colon parameters between commas; blank ones are passed over. -/
def readHeader (header : List Char) : Except HeaderError (String × List String) :=
  let (name, params) := (Text.splitOnce ':' header).getD (header, [])
  let name := Text.trim name
  if Text.isName name then
    (readParams (((Text.splitAll ',' params).map Text.trim).filter (!·.isEmpty))).map
      (String.ofList name, ·)
  else .error (.templateName (String.ofList name))

/-- The segment whose opening ends just before `cs`, at byte `start + opening` of the source, and
what follows its closing, with the byte at which that starts. `names` are the segments before. -/
def read (names : List String) (start : Nat) (cs : List Char) :
    Except (Fault × Text.Span) (Segment × Nat × List Char) :=
  let headerStart := start + Text.byteLength opening
  match Text.splitOnce '>' cs with
  | none => .error (.unterminatedMarker, ⟨start, headerStart + Text.byteLength cs⟩)
  | some (header, rest) =>
    let headerStop := headerStart + Text.byteLength header + 1
    let span : Text.Span := ⟨start, headerStop⟩
    match readHeader header with
    | .error reason => .error (.invalidSegmentHeader reason, span)
    | .ok (name, params) =>
      if names.contains name then .error (.duplicateTemplate name, span)
      else
        let text := Text.dropLineBreak rest
        let offset := headerStop + (Text.byteLength rest - Text.byteLength text)
        match Text.cut closing text with
        | none => .error (.unterminatedSegment, span)
        | some (body, after) =>
          match Text.cut opening body with
          | some (before, _) =>
            let nested := offset + Text.byteLength before
            .error (.nestedSegment name, ⟨nested, nested + Text.byteLength opening⟩)
          | none =>
            let next := offset + Text.byteLength body + Text.byteLength closing
            .ok (⟨name, params, Text.dropLastLineBreak body, offset⟩, next, after)

private theorem length_dropLineBreak_le (cs : List Char) :
    (Text.dropLineBreak cs).length ≤ cs.length := by
  unfold Text.dropLineBreak
  split
  · simp only [List.length_cons]; omega
  · simp only [List.length_cons]; omega
  · exact Nat.le_refl _

theorem read_length {names : List String} {start next : Nat} {cs after : List Char} {s : Segment}
    (h : read names start cs = .ok (s, next, after)) : after.length < cs.length := by
  unfold read at h
  split at h
  next => cases h
  next header rest hh =>
    have hcs := congrArg List.length (Text.cut_eq_some hh)
    have hrest := length_dropLineBreak_le rest
    split at h
    next => cases h
    next =>
      dsimp only at h
      split at h
      next => cases h
      next =>
        split at h
        next => cases h
        next body tail hb =>
          have htail := congrArg List.length (Text.cut_eq_some hb)
          split at h
          next => cases h
          next =>
            cases h
            simp only [List.length_append, List.length_cons, List.length_nil] at hcs htail
            omega

/-- The segments of `cs`, which starts at byte `start` of the source. -/
def splitFrom (names : List String) (start : Nat) (cs : List Char) :
    Except (Fault × Text.Span) (List Segment) :=
  let stray (before : List Char) : Text.Span :=
    let place := start + Text.byteLength before
    ⟨place, place + Text.byteLength closing⟩
  match ho : Text.cut opening cs, Text.cut closing cs with
  | none, none => .ok []
  | none, some (before, _) => .error (.straySegmentCloser, stray before)
  | some (before, rest), close =>
    match close.filter (fun c => c.1.length ≤ before.length) with
    | some (early, _) => .error (.straySegmentCloser, stray early)
    | none =>
      match hr : read names (start + Text.byteLength before) rest with
      | .error e => .error e
      | .ok (s, next, after) =>
        have : after.length < cs.length := by
          have h₁ := congrArg List.length (Text.cut_eq_some ho)
          have h₂ := read_length hr
          simp only [List.length_append] at h₁
          omega
        (splitFrom (s.name :: names) next after).map (s :: ·)
termination_by cs.length

end Segment

/-- The segments of a source in the order of the file, or the first fault. A line break directly
after the header of a segment and one directly before its closing are not part of the body. -/
def splitSegments (sourceName : String) (source : List Char) : Except Malformed (List Segment) :=
  match Segment.splitFrom [] 0 source with
  | .ok segments => .ok segments
  | .error (f, span) => .error (.ofSpan sourceName source span f)

end TemplateEngine

import TemplateEngine.Marker.Basic
import TemplateEngine.Text.Nesting

/-! A source text as a sequence of pieces: runs of text, directives, and at most one fault, which
ends the sequence. Layout markers have been carried out; only their text is left. -/
namespace TemplateEngine

inductive Piece where
  | text (cs : List Char)
  | directive (d : Directive) (span : Text.Span)
  | fault (f : Fault) (span : Text.Span)

namespace Piece

/-- The text before the next marker, how the marker opens and what follows its two opening
characters. `seen` is the reverse of what was passed. -/
def nextMarker (seen : List Char) : List Char → List Char × Option (Opener × List Char)
  | [] => (seen.reverse, none)
  | '<' :: c :: rest =>
    match Opener.ofChar? c with
    | some opener => (seen.reverse, some (opener, rest))
    | none => nextMarker ('<' :: seen) (c :: rest)
  | c :: rest => nextMarker (c :: seen) rest

theorem nextMarker_length {seen cs plain : List Char} {opener : Opener} {rest : List Char}
    (h : nextMarker seen cs = (plain, some (opener, rest))) : rest.length < cs.length := by
  fun_induction nextMarker seen cs with
  | case1 => simp at h
  | case2 seen c tail o ho =>
    simp only [Prod.mk.injEq, Option.some.injEq] at h
    simp only [← h.2.2, List.length_cons]
    omega
  | case3 seen c tail ho ih =>
    have := ih h
    simp only [List.length_cons] at this ⊢
    omega
  | case4 seen c tail _ ih =>
    have := ih h
    simp only [List.length_cons]
    omega

/-- The text of a marker and what follows its `>`. Quotes and brackets can hold a `>`, but not in a
comment. -/
def markerText (cs : List Char) : Option (List Char × List Char) :=
  match cs with
  | '-' :: '-' :: _ => Text.splitOnce '>' cs
  | _ => Text.cutAtTop '>' cs

theorem markerText_eq_some {cs body after : List Char} (h : markerText cs = some (body, after)) :
    cs = body ++ '>' :: after := by
  unfold markerText at h
  split at h
  · exact Text.splitOnce_eq_some h
  · exact Text.cutAtTop_eq_some h

/-- The pieces of `cs`, which starts at byte `start` of the source. `afterSkip` tells whether
nothing but blanks stands between the last skip and `cs`. -/
def scan (start : Nat) (afterSkip : Bool) (cs : List Char) : List Piece :=
  match hm : nextMarker [] cs with
  | (plain, none) => [.text plain]
  | (plain, some (opener, rest)) =>
    let opened := start + Text.byteLength plain
    match ht : markerText rest with
    | none =>
      [.text plain, .fault .unterminatedMarker ⟨opened, opened + 2 + Text.byteLength rest⟩]
    | some (body, after) =>
      have hlt : after.length < cs.length := by
        have h₁ := nextMarker_length hm
        have h₂ := congrArg List.length (markerText_eq_some ht)
        simp only [List.length_append, List.length_cons] at h₂
        omega
      let closed := opened + 2 + Text.byteLength body + 1
      match Marker.classify opener body with
      | .error f => [.text plain, .fault f ⟨opened, closed⟩]
      | .ok (.directive d) =>
        .text plain :: .directive d ⟨opened, closed⟩ :: scan closed false after
      | .ok (.layout l) =>
        let rest := l.skip after
        have : rest.length < cs.length := Nat.lt_of_le_of_lt (l.length_skip_le after) hlt
        .text plain :: .text (l.text (afterSkip && plain.isEmpty)) ::
          scan (closed + (Text.byteLength after - Text.byteLength rest)) (l == .skipSpace) rest
termination_by cs.length

def ofSource (source : List Char) : List Piece :=
  scan 0 false source

end Piece

end TemplateEngine

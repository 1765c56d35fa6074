import Mathlib.Data.List.Forall2
import TemplateEngine.Marker.Piece
import TemplateEngine.Proofs.Text.Cut

/-! A source in which a directive is replaced by an empty comment. Its pieces are the same but for
the directive, and for the places of those that come after it. -/
namespace TemplateEngine

namespace Text

theorem eq_nil_of_byteLength_eq_zero {cs : List Char} (h : byteLength cs = 0) : cs = [] := by
  cases cs with
  | nil => rfl
  | cons c cs =>
    have := c.utf8Size_pos
    simp only [byteLength_cons] at h
    omega

/-- Of two first parts of a text, the one that has no more bytes is a first part of the other. -/
theorem exists_of_byteLength_le {xs ys r r' : List Char} (h : xs ++ r = ys ++ r')
    (hle : byteLength xs ≤ byteLength ys) : ∃ zs, ys = xs ++ zs ∧ r = zs ++ r' := by
  obtain ⟨zs, hys, hr⟩ | ⟨zs, hxs, hr⟩ := List.append_eq_append_iff.mp h
  · exact ⟨zs, hys, hr⟩
  · have hzs : zs = [] := by
      apply eq_nil_of_byteLength_eq_zero
      simp only [hxs, byteLength_append] at hle
      omega
    exact ⟨[], by simp [hxs, hzs], by simp [hr, hzs]⟩

theorem eq_of_byteLength_eq {xs ys r r' : List Char} (h : xs ++ r = ys ++ r')
    (hlength : byteLength xs = byteLength ys) : xs = ys ∧ r = r' := by
  obtain ⟨zs, rfl, rfl⟩ := exists_of_byteLength_le h (Nat.le_of_eq hlength)
  have hzs : zs = [] := by
    apply eq_nil_of_byteLength_eq_zero
    simp only [byteLength_append] at hlength
    omega
  simp [hzs]

/-! What is cut off does not depend on what comes after it. -/

theorem Nesting.exists_of_cutFrom {stop : Char} {n : Nesting} {seen cs before after : List Char}
    (h : cutFrom stop n seen cs = some (before, after)) :
    ∃ passed, before = seen.reverse ++ passed ∧ cs = passed ++ stop :: after ∧
      ∀ after', cutFrom stop n seen (passed ++ stop :: after') = some (before, after') := by
  induction cs generalizing n seen with
  | nil => cases h
  | cons c rest ih =>
    rw [cutFrom] at h
    split at h
    · next hstop =>
      cases h
      obtain rfl : c = stop := by simp at hstop; exact hstop.2
      refine ⟨[], by simp, rfl, fun after' => ?_⟩
      rw [List.nil_append, cutFrom, if_pos hstop]
    · next hstop =>
      obtain ⟨passed, rfl, rfl, hcut⟩ := ih h
      refine ⟨c :: passed, by simp, rfl, fun after' => ?_⟩
      rw [List.cons_append, cutFrom, if_neg hstop, hcut]

theorem exists_of_cutFrom {sep : Char} {seen cs before after : List Char}
    (h : cutFrom [sep] seen cs = some (before, after)) :
    ∃ passed, before = seen.reverse ++ passed ∧ cs = passed ++ sep :: after ∧
      ∀ after', cutFrom [sep] seen (passed ++ sep :: after') = some (before, after') := by
  induction cs generalizing seen with
  | nil => simp [cutFrom] at h
  | cons c rest ih =>
    rw [cutFrom] at h
    by_cases hsep : sep = c
    · subst hsep
      simp only [stripPrefix?, if_true] at h
      cases h
      exact ⟨[], by simp, rfl, fun after' => by simp [cutFrom, stripPrefix?]⟩
    · simp only [stripPrefix?, hsep, if_false] at h
      obtain ⟨passed, rfl, rfl, hcut⟩ := ih h
      refine ⟨c :: passed, by simp, rfl, fun after' => ?_⟩
      simp [cutFrom, stripPrefix?, hsep, hcut]

end Text

@[simp] theorem Opener.ofChar?_char (opener : Opener) : ofChar? opener.char = some opener := by
  cases opener <;> rfl

@[simp] theorem Opener.utf8Size_char (opener : Opener) : opener.char.utf8Size = 1 := by
  cases opener <;> rfl

/-- The text of a marker. -/
def Opener.marker (opener : Opener) (body : List Char) : List Char :=
  '<' :: opener.char :: (body ++ ['>'])

theorem Opener.char_of_ofChar? {c : Char} {opener : Opener} (h : ofChar? c = some opener) :
    c = opener.char := by
  unfold ofChar? at h
  split at h
  · next hc =>
    cases h
    exact hc
  · split at h
    · next hc =>
      cases h
      exact hc
    · split at h
      · next hc =>
        cases h
        exact hc
      · cases h

theorem Layout.skip_append (l : Layout) (cs v : List Char) :
    l.skip (cs ++ '<' :: v) = l.skip cs ++ '<' :: v := by
  have hdropWhile (p : Char → Bool) (hp : p '<' = false) :
      (cs ++ '<' :: v).dropWhile p = cs.dropWhile p ++ '<' :: v := by
    rw [List.dropWhile_append]
    split
    · next hcs => simp_all
    · rfl
  cases l with
  | skipSpace => exact hdropWhile _ (by decide)
  | skipBlanks => exact hdropWhile _ (by decide)
  | skipNewline =>
    simp only [skip]
    fun_cases Text.dropLineBreak cs with
    | case1 rest => simp [Text.dropLineBreak]
    | case2 rest => simp [Text.dropLineBreak]
    | case3 _ hbreak hfeed =>
      unfold Text.dropLineBreak
      split
      · next heq =>
        obtain _ | ⟨c, _ | ⟨d, cs⟩⟩ := cs
        · simp at heq
        · simp at heq
        · simp only [List.cons_append, List.cons.injEq] at heq
          exact absurd (by simp [heq]) (hbreak cs)
      · next heq =>
        obtain _ | ⟨c, cs⟩ := cs
        · simp at heq
        · simp only [List.cons_append, List.cons.injEq] at heq
          exact absurd (by simp [heq]) (hfeed cs)
      · rfl
  | character c => rfl
  | comment => rfl

theorem Layout.exists_skipped (l : Layout) (cs : List Char) :
    ∃ skipped, cs = skipped ++ l.skip cs := by
  have hdropWhile (p : Char → Bool) : ∃ skipped, cs = skipped ++ cs.dropWhile p :=
    ⟨cs.takeWhile p, List.takeWhile_append_dropWhile.symm⟩
  cases l with
  | skipSpace => exact hdropWhile _
  | skipBlanks => exact hdropWhile _
  | skipNewline => exact Text.exists_dropLineBreak cs
  | character c => exact ⟨[], rfl⟩
  | comment => exact ⟨[], rfl⟩

/-- What a skip leaves before a marker does not depend on the marker. -/
theorem Layout.exists_left (l : Layout) {cs more rest : List Char} (hcs : cs = more ++ rest)
    (hle : Text.byteLength cs - Text.byteLength (l.skip cs) ≤ Text.byteLength more) :
    ∃ left, l.skip cs = left ++ rest ∧
      Text.byteLength more =
        Text.byteLength cs - Text.byteLength (l.skip cs) + Text.byteLength left ∧
      ∀ v, rest = '<' :: v → ∀ v', l.skip (more ++ '<' :: v') = left ++ '<' :: v' := by
  obtain ⟨skipped, hskipped⟩ := l.exists_skipped cs
  have hlength := congrArg Text.byteLength hskipped
  rw [Text.byteLength_append] at hlength
  obtain ⟨left, rfl, hleft⟩ := Text.exists_of_byteLength_le (hskipped.symm.trans hcs) (by omega)
  refine ⟨left, hleft, by rw [Text.byteLength_append]; omega, ?_⟩
  rintro v rfl v'
  rw [hcs, skip_append] at hleft
  rw [skip_append, List.append_cancel_right hleft]

namespace Piece

theorem nextMarker_of_text {seen tail : List Char} {c : Char} (h : Opener.ofChar? c = none) :
    nextMarker seen ('<' :: c :: tail) = nextMarker ('<' :: seen) (c :: tail) := by
  rw [nextMarker, h]

theorem nextMarker_of_ne {seen tail : List Char} {c : Char} (h : c ≠ '<') :
    nextMarker seen (c :: tail) = nextMarker (c :: seen) tail := by
  rw [nextMarker]
  rintro _ _ rfl
  exact absurd rfl h

/-- The text before a marker is the same, whichever marker it is. -/
theorem exists_of_nextMarker_seen {seen cs plain rest : List Char} {opener : Opener}
    (h : nextMarker seen cs = (plain, some (opener, rest))) :
    ∃ passed, plain = seen.reverse ++ passed ∧ cs = passed ++ '<' :: opener.char :: rest ∧
      ∀ (opener' : Opener) rest',
        nextMarker seen (passed ++ '<' :: opener'.char :: rest') =
          (plain, some (opener', rest')) := by
  fun_induction nextMarker seen cs with
  | case1 seen => simp at h
  | case2 seen c tail o ho =>
    obtain ⟨rfl, rfl, rfl⟩ := by simpa using h
    refine ⟨[], by simp, by simp [Opener.char_of_ofChar? ho], fun opener' rest' => ?_⟩
    simp [nextMarker]
  | case3 seen c tail ho ih =>
    obtain ⟨passed, rfl, hcs, hnext⟩ := ih h
    refine ⟨'<' :: passed, by simp, by simp [hcs], fun opener' rest' => ?_⟩
    have hafter : ∃ d tail', passed ++ '<' :: opener'.char :: rest' = d :: tail' ∧
        Opener.ofChar? d = none := by
      cases passed with
      | nil => exact ⟨_, _, rfl, by decide⟩
      | cons d passed =>
        obtain ⟨rfl, -⟩ := List.cons.inj hcs
        exact ⟨_, _, rfl, ho⟩
    have hnext := hnext opener' rest'
    obtain ⟨d, tail', hd, hd'⟩ := hafter
    rw [List.cons_append, hd, nextMarker_of_text hd', ← hd, hnext]
  | case4 seen c tail hnot ih =>
    obtain ⟨passed, rfl, hcs, hnext⟩ := ih h
    refine ⟨c :: passed, by simp, by simp [hcs], fun opener' rest' => ?_⟩
    have hc : c ≠ '<' := by
      rintro rfl
      cases tail with
      | nil => simp at hcs
      | cons d tail => exact hnot d tail rfl rfl
    rw [List.cons_append, nextMarker_of_ne hc, hnext]

theorem exists_of_nextMarker {cs plain rest : List Char} {opener : Opener}
    (h : nextMarker [] cs = (plain, some (opener, rest))) :
    cs = plain ++ '<' :: opener.char :: rest ∧ ∀ (opener' : Opener) rest',
      nextMarker [] (plain ++ '<' :: opener'.char :: rest') = (plain, some (opener', rest')) := by
  obtain ⟨passed, rfl, hcs, hnext⟩ := exists_of_nextMarker_seen h
  exact ⟨hcs, hnext⟩

theorem markerText_of_comment {cs : List Char} (h : ['-', '-'] <+: cs) :
    markerText cs = Text.splitOnce '>' cs := by
  obtain ⟨tail, rfl⟩ := h
  rfl

theorem markerText_of_not_comment {cs : List Char} (h : ¬['-', '-'] <+: cs) :
    markerText cs = Text.cutAtTop '>' cs := by
  unfold markerText
  split
  · exact absurd ⟨_, rfl⟩ h
  · rfl

/-- The text of a marker is the same, whatever comes after the marker. -/
theorem exists_of_markerText {cs body after : List Char} (h : markerText cs = some (body, after)) :
    cs = body ++ '>' :: after ∧
      ∀ after', markerText (body ++ '>' :: after') = some (body, after') := by
  have hcs := markerText_eq_some h
  refine ⟨hcs, fun after' => ?_⟩
  have hcomment : ['-', '-'] <+: cs ↔ ['-', '-'] <+: body ++ '>' :: after' := by
    rw [hcs]
    match body with
    | [] => simp
    | [c] => simp
    | c :: d :: body => simp
  by_cases hdashes : ['-', '-'] <+: cs
  · rw [markerText_of_comment hdashes] at h
    rw [markerText_of_comment (hcomment.mp hdashes)]
    obtain ⟨passed, rfl, hpassed, hcut⟩ := Text.exists_of_cutFrom h
    exact hcut after'
  · rw [markerText_of_not_comment hdashes] at h
    rw [markerText_of_not_comment fun h => hdashes (hcomment.mpr h)]
    obtain ⟨passed, rfl, hpassed, hcut⟩ := Text.Nesting.exists_of_cutFrom h
    exact hcut after'

/-- One step of a scan. -/
theorem scan_eq (start : Nat) (afterSkip : Bool) (cs : List Char) :
    scan start afterSkip cs =
      match nextMarker [] cs with
      | (plain, none) => [.text plain]
      | (plain, some (opener, rest)) =>
        let opened := start + Text.byteLength plain
        match markerText rest with
        | none =>
          [.text plain, .fault .unterminatedMarker ⟨opened, opened + 2 + Text.byteLength rest⟩]
        | some (body, after) =>
          let closed := opened + 2 + Text.byteLength body + 1
          match Marker.classify opener body with
          | .error f => [.text plain, .fault f ⟨opened, closed⟩]
          | .ok (.directive d) =>
            .text plain :: .directive d ⟨opened, closed⟩ :: scan closed false after
          | .ok (.layout l) =>
            .text plain :: .text (l.text (afterSkip && plain.isEmpty)) ::
              scan (closed + (Text.byteLength after - Text.byteLength (l.skip after)))
                (l == .skipSpace) (l.skip after) := by
  rw [scan]
  split
  · next hnext => simp only [hnext]
  · next plain opener rest hnext =>
    dsimp only
    split
    · next htext => simp only [hnext, htext]
    · next body after htext =>
      cases hclass : Marker.classify opener body with
      | error f => simp only [hnext, htext, hclass]
      | ok m => cases m <;> simp only [hnext, htext, hclass]

section Step

variable {start : Nat} {afterSkip : Bool} {cs plain rest body after : List Char} {opener : Opener}
  (hnext : nextMarker [] cs = (plain, some (opener, rest)))
  (htext : markerText rest = some (body, after))
include hnext htext

theorem scan_fault {f : Fault} (hf : Marker.classify opener body = .error f) :
    scan start afterSkip cs =
      let opened := start + Text.byteLength plain
      [.text plain, .fault f ⟨opened, opened + 2 + Text.byteLength body + 1⟩] := by
  simp only [scan_eq start, hnext, htext, hf]

theorem scan_directive {d : Directive} (hd : Marker.classify opener body = .ok (.directive d)) :
    scan start afterSkip cs =
      let opened := start + Text.byteLength plain
      let closed := opened + 2 + Text.byteLength body + 1
      .text plain :: .directive d ⟨opened, closed⟩ :: scan closed false after := by
  simp only [scan_eq start, hnext, htext, hd]

theorem scan_layout {l : Layout} (hl : Marker.classify opener body = .ok (.layout l)) :
    scan start afterSkip cs =
      let closed := start + Text.byteLength plain + 2 + Text.byteLength body + 1
      .text plain :: .text (l.text (afterSkip && plain.isEmpty)) ::
        scan (closed + (Text.byteLength after - Text.byteLength (l.skip after))) (l == .skipSpace)
          (l.skip after) := by
  simp only [scan_eq start, hnext, htext, hl]

end Step

theorem start_le_of_mem_scan {start : Nat} {afterSkip : Bool} {cs : List Char} {d : Directive}
    {span : Text.Span} (h : .directive d span ∈ scan start afterSkip cs) : start ≤ span.start := by
  fun_induction scan start afterSkip cs with
  | case1 => simp at h
  | case2 => simp at h
  | case3 => simp at h
  | case4 start afterSkip cs plain opener rest hnext opened body after htext hlt closed d' hd ih =>
    simp only [List.mem_cons, reduceCtorEq, directive.injEq, false_or] at h
    obtain ⟨-, rfl⟩ | h := h
    · simp only [opened]
      omega
    · have := ih h
      omega
  | case5 start afterSkip cs plain opener rest hnext opened body after htext hlt closed l hl =>
    rename_i ih
    simp only [List.mem_cons, reduceCtorEq, false_or] at h
    have := ih h
    omega

theorem byteLength_marker (opener : Opener) (body after : List Char) :
    Text.byteLength ('<' :: opener.char :: (body ++ '>' :: after)) =
      2 + Text.byteLength body + 1 + Text.byteLength after := by
  have hopen : '<'.utf8Size = 1 := rfl
  have hclose : '>'.utf8Size = 1 := rfl
  simp only [Text.byteLength_append, Text.byteLength_cons, hopen, hclose, Opener.utf8Size_char]
  omega

/-- What comes after a marker is a part of all that comes after. -/
theorem exists_rest {plain body before after rest : List Char} {opener : Opener}
    (h : plain ++ '<' :: opener.char :: (body ++ '>' :: after) = before ++ rest)
    (hle : Text.byteLength plain + 2 + Text.byteLength body + 1 ≤ Text.byteLength before) :
    ∃ more, before = plain ++ '<' :: opener.char :: (body ++ '>' :: more) ∧
      after = more ++ rest := by
  have hmarker : (plain ++ '<' :: opener.char :: (body ++ ['>'])) ++ after = before ++ rest := by
    simp [← h]
  obtain ⟨more, rfl, rfl⟩ := Text.exists_of_byteLength_le hmarker (by
    rw [Text.byteLength_append, byteLength_marker, Text.byteLength_nil]
    omega)
  exact ⟨more, by simp, rfl⟩

/-- The marker that has the same place as another one is that one. -/
theorem eq_marker {plain body before marker after after' : List Char} {opener : Opener}
    (h : plain ++ '<' :: opener.char :: (body ++ '>' :: after') = before ++ (marker ++ after))
    (hbefore : Text.byteLength plain = Text.byteLength before)
    (hmarker : 2 + Text.byteLength body + 1 = Text.byteLength marker) :
    plain = before ∧ '<' :: opener.char :: (body ++ ['>']) = marker ∧ after' = after := by
  obtain ⟨rfl, h⟩ := Text.eq_of_byteLength_eq h hbefore
  have h : '<' :: opener.char :: (body ++ ['>']) ++ after' = marker ++ after := by simpa using h
  have hlength : Text.byteLength ('<' :: opener.char :: (body ++ ['>'])) =
      Text.byteLength marker := by
    rw [byteLength_marker, hmarker, Text.byteLength_nil, Nat.add_zero]
  obtain ⟨rfl, rfl⟩ := Text.eq_of_byteLength_eq h hlength
  exact ⟨rfl, rfl, rfl⟩

/-- A marker of `cs` with this text stands at this place, if `cs` starts at byte `start`. -/
structure MarkerAt (start : Nat) (cs : List Char) (opener : Opener) (body : List Char)
    (span : Text.Span) : Prop where
  place : ∃ before after, cs = before ++ '<' :: opener.char :: (body ++ '>' :: after) ∧
    span.start = start + Text.byteLength before ∧
    span.stop = span.start + (2 + Text.byteLength body + 1)
  closed : markerText (body ++ ['>']) = some (body, [])

theorem MarkerAt.append {start : Nat} {cs body : List Char} {opener : Opener} {span : Text.Span}
    {passed : List Char} (h : MarkerAt (start + Text.byteLength passed) cs opener body span) :
    MarkerAt start (passed ++ cs) opener body span where
  place := by
    obtain ⟨before, after, rfl, hstart, hstop⟩ := h.place
    refine ⟨passed ++ before, after, (List.append_assoc _ _ _).symm, ?_, hstop⟩
    rw [hstart, Text.byteLength_append, Nat.add_assoc]
  closed := h.closed

theorem markerAt_of_markerText {start : Nat} {cs plain rest body after : List Char}
    {opener : Opener} (hnext : nextMarker [] cs = (plain, some (opener, rest)))
    (htext : markerText rest = some (body, after)) :
    MarkerAt start cs opener body ⟨start + Text.byteLength plain,
      start + Text.byteLength plain + 2 + Text.byteLength body + 1⟩ where
  place := by
    have hcs := (exists_of_nextMarker hnext).1
    rw [(exists_of_markerText htext).1] at hcs
    exact ⟨plain, after, hcs, rfl, by simp only [Nat.add_assoc]⟩
  closed := (exists_of_markerText htext).2 []

/-- A piece is a text, or what a marker says at the place of that marker. A marker that is never
closed goes on to the end. -/
inductive ReadFrom (start : Nat) (cs : List Char) : Piece → Prop where
  | text (plain : List Char) : ReadFrom start cs (.text plain)
  | directive {opener : Opener} {body : List Char} {d : Directive} {span : Text.Span} :
    MarkerAt start cs opener body span → Marker.classify opener body = .ok (.directive d) →
      ReadFrom start cs (.directive d span)
  | fault {opener : Opener} {body : List Char} {f : Fault} {span : Text.Span} :
    MarkerAt start cs opener body span → Marker.classify opener body = .error f →
      ReadFrom start cs (.fault f span)
  | unterminated {before rest : List Char} {opener : Opener} {span : Text.Span} :
    cs = before ++ '<' :: opener.char :: rest → markerText rest = none →
      span.start = start + Text.byteLength before → span.stop = start + Text.byteLength cs →
      ReadFrom start cs (.fault .unterminatedMarker span)

theorem ReadFrom.append {start : Nat} {cs passed : List Char} {p : Piece}
    (h : ReadFrom (start + Text.byteLength passed) cs p) : ReadFrom start (passed ++ cs) p := by
  cases h with
  | text plain => exact .text plain
  | directive hmarker hd => exact .directive hmarker.append hd
  | fault hmarker hf => exact .fault hmarker.append hf
  | @unterminated before rest opener span hcs htext hstart hstop =>
    subst hcs
    refine .unterminated (List.append_assoc _ _ _).symm htext ?_ ?_
    · rw [hstart, Text.byteLength_append, Nat.add_assoc]
    · rw [hstop, Text.byteLength_append passed, Nat.add_assoc]

/-- Each piece of a scan is read off the source. -/
theorem readFrom_of_mem_scan {start : Nat} {afterSkip : Bool} {cs : List Char} {p : Piece}
    (h : p ∈ scan start afterSkip cs) : ReadFrom start cs p := by
  fun_induction scan start afterSkip cs with
  | case1 start afterSkip cs plain hnext =>
    rw [List.mem_singleton.mp h]
    exact .text plain
  | case2 start afterSkip cs plain opener rest hnext opened htext =>
    have hcs := (exists_of_nextMarker hnext).1
    obtain rfl | rfl := by simpa using h
    · exact .text plain
    · refine .unterminated hcs htext rfl ?_
      have hopen : '<'.utf8Size = 1 := rfl
      simp only [hcs, Text.byteLength_append, Text.byteLength_cons, hopen, Opener.utf8Size_char]
      omega
  | case3 start afterSkip cs plain opener rest hnext opened body after htext hlt closed f hf =>
    obtain rfl | rfl := by simpa using h
    · exact .text plain
    · exact .fault (markerAt_of_markerText hnext htext) hf
  | case4 start afterSkip cs plain opener rest hnext opened body after htext hlt closed d hd ih =>
    have hcs := (exists_of_nextMarker hnext).1
    rw [(exists_of_markerText htext).1] at hcs
    obtain rfl | rfl | h := by simpa using h
    · exact .text plain
    · exact .directive (markerAt_of_markerText hnext htext) hd
    · have hpassed : closed = start +
          Text.byteLength (plain ++ '<' :: opener.char :: (body ++ ['>'])) := by
        rw [Text.byteLength_append, byteLength_marker, Text.byteLength_nil]
        omega
      have hall : cs = (plain ++ '<' :: opener.char :: (body ++ ['>'])) ++ after := by simp [hcs]
      rw [hall]
      exact ReadFrom.append (hpassed ▸ ih h)
  | case5 start afterSkip cs plain opener rest hnext opened body after htext hlt closed l hl =>
    rename_i rest' _ ih
    have hcs := (exists_of_nextMarker hnext).1
    rw [(exists_of_markerText htext).1] at hcs
    obtain rfl | rfl | h := by simpa using h
    · exact .text plain
    · exact .text _
    · obtain ⟨skipped, hskipped⟩ := l.exists_skipped after
      have hlength := congrArg Text.byteLength hskipped
      rw [Text.byteLength_append] at hlength
      have hpassed : closed + (Text.byteLength after - Text.byteLength rest') = start +
          Text.byteLength (plain ++ '<' :: opener.char :: (body ++ '>' :: skipped)) := by
        rw [Text.byteLength_append, byteLength_marker]
        simp only [rest']
        omega
      have hall : cs = (plain ++ '<' :: opener.char :: (body ++ '>' :: skipped)) ++ rest' := by
        rw [hcs, hskipped]
        simp [rest']
      rw [hall]
      exact ReadFrom.append (hpassed ▸ ih h)

/-- A directive has its place in the source. -/
theorem exists_split_of_scan {start : Nat} {afterSkip : Bool} {cs : List Char} {d : Directive}
    {span : Text.Span} (h : .directive d span ∈ scan start afterSkip cs) :
    ∃ before marker after, cs = before ++ (marker ++ after) ∧
      span = ⟨start + Text.byteLength before,
        start + Text.byteLength before + Text.byteLength marker⟩ := by
  cases readFrom_of_mem_scan h with
  | @directive opener body _ _ hmarker _ =>
    obtain ⟨before, after, rfl, hstart, hstop⟩ := hmarker.place
    refine ⟨before, '<' :: opener.char :: (body ++ ['>']), after, by simp, ?_⟩
    rw [byteLength_marker, Text.byteLength_nil, Nat.add_zero, ← hstart, ← hstop]

def emptyComment : List Char :=
  "<:-->".toList

theorem markerText_emptyComment {after : List Char} :
    markerText ('-' :: '-' :: '>' :: after) = some (['-', '-'], after) := by
  simp [markerText, Text.splitOnce, Text.cut, Text.cutFrom, Text.stripPrefix?]

theorem classify_emptyComment :
    Marker.classify .directive ['-', '-'] = .ok (.layout .comment) := rfl

/-- An empty comment leaves nothing behind. -/
theorem exists_scan_emptyComment (start : Nat) (afterSkip : Bool) {plain : List Char}
    (hnext : ∀ (opener : Opener) rest,
      nextMarker [] (plain ++ '<' :: opener.char :: rest) = (plain, some (opener, rest)))
    (after : List Char) : ∃ closed, scan start afterSkip (plain ++ (emptyComment ++ after)) =
      .text plain :: .text [] :: scan closed false after :=
  ⟨_, scan_layout (hnext .directive _) markerText_emptyComment classify_emptyComment⟩

/-- Where a directive is replaced by an empty comment, the scan goes on from the same place. -/
theorem scan_emptyComment {start : Nat} {afterSkip : Bool} {cs before marker after : List Char}
    (hcs : cs = before ++ (marker ++ after)) {d : Directive} {pieces rest : List Piece}
    (h : scan start afterSkip cs = pieces ++
      .directive d ⟨start + Text.byteLength before,
        start + Text.byteLength before + Text.byteLength marker⟩ :: rest) :
    (∃ more, marker = '<' :: more) ∧ ∃ closed closed', rest = scan closed false after ∧
      scan start afterSkip (before ++ (emptyComment ++ after)) =
        pieces ++ .text [] :: scan closed' false after := by
  have hmem : .directive d ⟨start + Text.byteLength before,
      start + Text.byteLength before + Text.byteLength marker⟩ ∈ scan start afterSkip cs := by
    simp [h]
  fun_induction scan start afterSkip cs generalizing before pieces with
  | case1 => simp at hmem
  | case2 => simp at hmem
  | case3 => simp at hmem
  | case4 start afterSkip cs plain opener rest' hnext opened body after' htext hlt closed d' hd =>
    rename_i ih
    obtain ⟨hopen, hnext'⟩ := exists_of_nextMarker hnext
    obtain ⟨hbody, htext'⟩ := exists_of_markerText htext
    rw [hbody, hcs] at hopen
    match pieces, h with
    | [_], h =>
      -- This is the directive.
      simp only [List.cons_append, List.nil_append, List.cons.injEq, directive.injEq,
        Text.Span.mk.injEq] at h
      obtain ⟨rfl, ⟨-, hstart, hstop⟩, rfl⟩ := h
      simp only [opened, closed] at hstart hstop
      obtain ⟨rfl, rfl, rfl⟩ := eq_marker hopen.symm (by omega) (by omega)
      obtain ⟨closed', hscan⟩ := exists_scan_emptyComment start afterSkip hnext' after'
      exact ⟨⟨_, rfl⟩, closed, closed', rfl, hscan⟩
    | _ :: _ :: pieces, h =>
      simp only [List.cons_append, List.cons.injEq] at h
      obtain ⟨rfl, rfl, h⟩ := h
      have hle := start_le_of_mem_scan (h ▸ List.mem_append_right pieces List.mem_cons_self)
      simp only [opened, closed] at hle
      obtain ⟨more, rfl, rfl⟩ := exists_rest hopen.symm (by omega)
      have hplace : start + Text.byteLength (plain ++ '<' :: opener.char :: (body ++ '>' :: more)) =
          closed + Text.byteLength more := by
        rw [Text.byteLength_append, byteLength_marker]
        omega
      rw [hplace] at h
      obtain ⟨hopens, closed₁, closed₂, hrest, hscan⟩ :=
        ih rfl h (h ▸ List.mem_append_right pieces List.mem_cons_self)
      refine ⟨hopens, closed₁, closed₂, hrest, ?_⟩
      simp only [List.append_assoc, List.cons_append]
      refine (scan_directive (hnext' opener _) (htext' _) hd).trans ?_
      exact congrArg (.text plain :: .directive d' ⟨opened, closed⟩ :: ·) hscan
  | case5 start afterSkip cs plain opener rest' hnext opened body after' htext hlt closed l hl =>
    rename_i skipped _ ih
    obtain ⟨hopen, hnext'⟩ := exists_of_nextMarker hnext
    obtain ⟨hbody, htext'⟩ := exists_of_markerText htext
    rw [hbody, hcs] at hopen
    match pieces, h with
    | _ :: _ :: pieces, h =>
      simp only [List.cons_append, List.cons.injEq] at h
      obtain ⟨rfl, rfl, h⟩ := h
      have hle := start_le_of_mem_scan (h ▸ List.mem_append_right pieces List.mem_cons_self)
      simp only [opened, closed, skipped] at hle
      obtain ⟨more, rfl, hafter⟩ := exists_rest hopen.symm (by omega)
      rw [Text.byteLength_append, byteLength_marker] at hle
      obtain ⟨left, hleft, hlength, hskip⟩ := l.exists_left hafter (by omega)
      have hplace : start + Text.byteLength (plain ++ '<' :: opener.char :: (body ++ '>' :: more)) =
          closed + (Text.byteLength after' - Text.byteLength (l.skip after')) +
            Text.byteLength left := by
        rw [Text.byteLength_append, byteLength_marker]
        omega
      rw [hplace] at h
      obtain ⟨⟨v, hv⟩, closed₁, closed₂, hrest, hscan⟩ :=
        ih hleft h (h ▸ List.mem_append_right pieces List.mem_cons_self)
      refine ⟨⟨v, hv⟩, closed₁, closed₂, hrest, ?_⟩
      have hskip' := hskip (v ++ after) (by rw [hv]; rfl) (':' :: '-' :: '-' :: '>' :: after)
      change l.skip (more ++ (emptyComment ++ after)) = left ++ (emptyComment ++ after) at hskip'
      simp only [List.append_assoc, List.cons_append]
      refine (scan_layout (hnext' opener _) (htext' _) hl).trans ?_
      have hstart : Text.byteLength (more ++ (emptyComment ++ after)) -
          Text.byteLength (l.skip (more ++ (emptyComment ++ after))) =
            Text.byteLength after' - Text.byteLength (l.skip after') := by
        rw [hskip', Text.byteLength_append, Text.byteLength_append left]
        omega
      rw [hstart, hskip']
      exact congrArg (.text plain :: .text (l.text (afterSkip && plain.isEmpty)) :: ·) hscan

/-- The same piece, maybe at another place. -/
inductive Alike : Piece → Piece → Prop where
  | text (cs : List Char) : Alike (.text cs) (.text cs)
  | directive (d : Directive) (span span' : Text.Span) :
    Alike (.directive d span) (.directive d span')
  | fault (f : Fault) (span span' : Text.Span) : Alike (.fault f span) (.fault f span')

theorem Alike.refl (p : Piece) : p.Alike p := by
  cases p with
  | text cs => exact .text cs
  | directive d span => exact .directive d span span
  | fault f span => exact .fault f span span

theorem scan_alike (start start' : Nat) (afterSkip : Bool) (cs : List Char) :
    List.Forall₂ Alike (scan start afterSkip cs) (scan start' afterSkip cs) := by
  fun_induction scan start afterSkip cs generalizing start' with
  | case1 start afterSkip cs plain hnext =>
    rw [scan_eq, hnext]
    exact .cons (.text plain) .nil
  | case2 start afterSkip cs plain opener rest hnext opened htext =>
    simp only [scan_eq start', hnext, htext]
    exact .cons (.text plain) (.cons (.fault _ _ _) .nil)
  | case3 start afterSkip cs plain opener rest hnext opened body after htext hlt closed f hf =>
    simp only [scan_eq start', hnext, htext, hf]
    exact .cons (.text plain) (.cons (.fault f _ _) .nil)
  | case4 start afterSkip cs plain opener rest hnext opened body after htext hlt closed d hd =>
    rename_i ih
    rw [scan_directive hnext htext hd]
    exact .cons (.text plain) (.cons (.directive d _ _) (ih _))
  | case5 start afterSkip cs plain opener rest hnext opened body after htext hlt closed l hl =>
    rename_i ih
    rw [scan_layout hnext htext hl]
    exact .cons (.text plain) (.cons (.text _) (ih _))

end Piece

end TemplateEngine

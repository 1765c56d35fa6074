import TemplateEngine.Proofs.Bytes.Marker

/-! Scanning a source by its bytes. A cursor goes from one marker to the next; whatever is looked at
is looked up by the cursor, and nothing is found beyond the end of the source or, where characters
are asked for, inside a character. -/
namespace TemplateEngine.Scanner

open Text (utf8 byteOf byteLength slice? sliceFrom? bytesFrom? distance?)

def seek (source : List Char) (cursor : Nat) : Nat :=
  min cursor (byteLength source)

def skipBlanks (bytes : List UInt8) (cursor : Nat) : Nat :=
  if bytes[cursor]? = some (byteOf ' ') ∨ bytes[cursor]? = some (byteOf '\t') then
    skipBlanks bytes (cursor + 1)
  else cursor
termination_by bytes.length - cursor
decreasing_by
  have hlt : cursor < bytes.length := by
    apply Nat.lt_of_not_le
    intro hle
    simp_all
  omega

/-- Where a layout marker leaves the cursor. -/
def skip? (source : List Char) (cursor : Nat) : Layout → Option Nat
  | .skipSpace => do
    let rest ← sliceFrom? source cursor
    return cursor + (← distance? (byteLength (Text.trimStart rest)) (byteLength rest))
  | .skipNewline => do
    let rest ← bytesFrom? (utf8 source) cursor
    return if (utf8 ['\r', '\n']).isPrefixOf rest then cursor + 2
      else if (utf8 ['\n']).isPrefixOf rest then cursor + 1
      else cursor
  | .skipBlanks => some (skipBlanks (utf8 source) cursor)
  | _ => some cursor

/-- The pieces up to the next marker, with the marker, and where the cursor is then. -/
def round? (source : List Char) (cursor : Nat) (afterSkip : Bool) :
    Option (List Piece × Option (Nat × Bool)) := do
  let (plain, opened) ← nextMarkerFrom? source cursor cursor
  let some (opener, start) := opened | return ([.text plain], none)
  let some stop ← markerEnd? source start
    | return ([.text plain, .fault .unterminatedMarker ⟨start, byteLength source⟩], none)
  let body ← slice? source (start + 2) stop
  match Marker.classify opener body with
  | .error (.unknownMarker _) =>
    let raw ← slice? source (start + 1) stop
    return ([.text plain, .fault (.unknownMarker (String.ofList raw)) ⟨start, stop + 1⟩], none)
  | .error f => return ([.text plain, .fault f ⟨start, stop + 1⟩], none)
  | .ok (.directive d) =>
    return ([.text plain, .directive d ⟨start, stop + 1⟩], some (seek source (stop + 1), false))
  | .ok (.layout l) =>
    let next ← skip? source (seek source (stop + 1)) l
    return ([.text plain, .text (l.text (afterSkip && plain.isEmpty))],
      some (next, l == .skipSpace))

/-- Goes on as long as the cursor advances. -/
def scanFrom? (source : List Char) (cursor : Nat) (afterSkip : Bool) : Option (List Piece) :=
  if cursor < byteLength source then
    match round? source cursor afterSkip with
    | none => none
    | some (pieces, none) => some pieces
    | some (pieces, some (next, afterSkip)) =>
      if cursor < next then (scanFrom? source next afterSkip).map (pieces ++ ·) else none
  else some [.text []]
termination_by byteLength source - cursor

/-! What a skip passes over. -/

variable {source before : List Char}

theorem skipBlanks_eq {cs : List Char} (h : source = before ++ cs) :
    skipBlanks (utf8 source) (byteLength before) = byteLength before +
      (byteLength cs - byteLength (cs.dropWhile fun c => c == ' ' || c == '\t')) := by
  induction cs generalizing before with
  | nil =>
    rw [skipBlanks, if_neg]
    · simp
    · rw [h, Text.getElem?_utf8]
      simp
  | cons c cs ih =>
    have hblank (d : Char) (hd : Text.isAscii d) :
        (utf8 source)[byteLength before]? = some (byteOf d) ↔ c = d := by
      rw [h, Text.getElem?_utf8, Text.getElem?_utf8_zero hd, List.head?_cons, Option.some_inj]
    rw [skipBlanks, List.dropWhile_cons]
    by_cases hc : c = ' ' ∨ c = '\t'
    · have hsize : c.utf8Size = 1 := by obtain rfl | rfl := hc <;> rfl
      have hsource : source = (before ++ [c]) ++ cs := by
        rw [h, List.append_assoc]
        rfl
      have hih := ih hsource
      have hle := Text.byteLength_le_of_suffix
        (List.dropWhile_suffix (fun c => c == ' ' || c == '\t') (l := cs))
      rw [Text.byteLength_append, Text.byteLength_cons, hsize, Text.byteLength_nil] at hih
      rw [if_pos (hc.imp (hblank ' ' rfl).mpr (hblank '\t' rfl).mpr), if_pos (by simpa using hc),
        Text.byteLength_cons, hsize, hih]
      omega
    · have hnot : ¬((utf8 source)[byteLength before]? = some (byteOf ' ') ∨
          (utf8 source)[byteLength before]? = some (byteOf '\t')) :=
        fun h => hc (h.imp (hblank ' ' rfl).mp (hblank '\t' rfl).mp)
      rw [if_neg hnot, if_neg (by simpa using hc), Nat.sub_self, Nat.add_zero]

/-- A skip passes over what it does not leave. -/
theorem skip?_eq {cs : List Char} (h : source = before ++ cs) (l : Layout) :
    skip? source (byteLength before) l =
      some (byteLength before + (byteLength cs - byteLength (l.skip cs))) := by
  have hstay : byteLength before + (byteLength cs - byteLength cs) = byteLength before := by
    rw [Nat.sub_self, Nat.add_zero]
  cases l with
  | skipSpace =>
    obtain ⟨skipped, hskipped⟩ := Layout.exists_skipped .skipSpace cs
    have hle : byteLength (Text.trimStart cs) ≤ byteLength cs :=
      Text.byteLength_le_of_suffix ⟨skipped, hskipped.symm⟩
    rw [skip?, Text.sliceFrom?_of_eq h rfl]
    change (distance? (byteLength (Text.trimStart cs)) (byteLength cs) >>= fun n =>
      pure (byteLength before + n)) = _
    rw [Text.distance?_of_le hle]
    rfl
  | skipNewline =>
    have hbreak : (utf8 ['\r', '\n']).isPrefixOf (utf8 cs) =
        (Text.stripPrefix? ['\r', '\n'] cs).isSome :=
      Text.isPrefixOf_utf8 (List.all_eq_true.mp rfl) cs
    have hfeed : (utf8 ['\n']).isPrefixOf (utf8 cs) = (Text.stripPrefix? ['\n'] cs).isSome :=
      Text.isPrefixOf_utf8 (List.all_eq_true.mp rfl) cs
    rw [skip?, Text.bytesFrom?_of_eq h rfl]
    change some (if (utf8 ['\r', '\n']).isPrefixOf (utf8 cs) then byteLength before + 2
      else if (utf8 ['\n']).isPrefixOf (utf8 cs) then byteLength before + 1
      else byteLength before) = _
    rw [hbreak, hfeed, Layout.skip, Text.byteLength_lineBreak]
    split_ifs <;> rfl
  | skipBlanks => exact congrArg some (skipBlanks_eq h)
  | character c | comment => exact congrArg some hstay.symm

/-! Scanning. -/

/-- What is left to do after a round: nothing, or to scan the rest of the source. A round that
leaves something to do has advanced the cursor past some characters. -/
def Leaves (before cs : List Char) (pieces all : List Piece) : Option (Nat × Bool) → Prop
  | none => all = pieces
  | some (cursor, afterSkip) => ∃ passed rest, cs = passed ++ rest ∧ passed ≠ [] ∧
      cursor = byteLength (before ++ passed) ∧ all = pieces ++ Piece.scan cursor afterSkip rest

/-- An unknown marker is told by its text. -/
theorem text_of_unknownMarker {opener : Opener} {body : List Char} {text : String}
    (h : Marker.classify opener body = .error (.unknownMarker text)) :
    text = String.ofList (opener.char :: body) := by
  unfold Marker.classify at h
  cases opener with
  | «variable» => cases h
  | closer =>
    dsimp only at h
    cases hcloser : Marker.closer? body with
    | none =>
      rw [hcloser] at h
      cases h
      rfl
    | some d =>
      rw [hcloser] at h
      cases h
  | directive =>
    dsimp only at h
    cases hdirective : Marker.directive? body with
    | some d =>
      rw [hdirective] at h
      cases h
    | none =>
      rw [hdirective] at h
      cases hlayout : Marker.layout? body with
      | some l =>
        rw [hlayout] at h
        cases h
      | none =>
        rw [hlayout] at h
        dsimp only at h
        split at h
        · cases h
          rfl
        · split at h <;> cases h

section Marker

variable {plain body after : List Char} {opener : Opener}
  (h : source = plain ++ '<' :: opener.char :: (body ++ '>' :: after))
include h

/-- The text of a marker starts after its two opening characters. -/
theorem slice?_body :
    slice? source (byteLength plain + 2) (byteLength plain + 2 + byteLength body) =
    some body := by
  have hsource : source = (plain ++ ['<', opener.char]) ++ (body ++ '>' :: after) := by simp [h]
  refine Text.slice?_of_eq hsource ?_ rfl
  rw [Text.byteLength_append, Text.byteLength_cons, Text.byteLength_cons, Opener.utf8Size_char]
  rfl

/-- An unknown marker is reported with the character that opens it. -/
theorem slice?_raw : slice? source (byteLength plain + 1) (byteLength plain + 2 + byteLength body) =
    some (opener.char :: body) := by
  have hsource : source = (plain ++ ['<']) ++ ((opener.char :: body) ++ '>' :: after) := by
    simp [h]
  refine Text.slice?_of_eq hsource ?_ ?_
  · rw [Text.byteLength_append]
    rfl
  · rw [Text.byteLength_cons, Opener.utf8Size_char]
    omega

/-- There is nothing to correct when the cursor goes behind a marker. -/
theorem seek_closed : seek source (byteLength plain + 2 + byteLength body + 1) =
    byteLength plain + 2 + byteLength body + 1 := by
  have hlength := Piece.byteLength_marker opener body after
  rw [seek, h, Text.byteLength_append, hlength]
  omega

end Marker

/-- A round that comes to a whole marker. -/
theorem round?_marker {cs plain rest body after : List Char} {opener : Opener} {afterSkip : Bool}
    (h : source = before ++ cs) (hnext : Piece.nextMarker [] cs = (plain, some (opener, rest)))
    (htext : Piece.markerText rest = some (body, after))
    (hfrom : nextMarkerFrom? source (byteLength before) (byteLength before) =
      some (plain, some (opener, byteLength before + byteLength plain)))
    (hend : markerEnd? source (byteLength before + byteLength plain) =
      some (some (byteLength before + byteLength plain + 2 + byteLength body))) :
    ∃ pieces next, round? source (byteLength before) afterSkip = some (pieces, next) ∧
      Leaves before cs pieces (Piece.scan (byteLength before) afterSkip cs) next := by
  obtain ⟨closed, hclosed⟩ : ∃ closed, closed =
    byteLength before + byteLength plain + 2 + byteLength body + 1 := ⟨_, rfl⟩
  have hmarker : cs = plain ++ '<' :: opener.char :: (body ++ '>' :: after) := by
    rw [(Piece.exists_of_nextMarker hnext).1, Piece.markerText_eq_some htext]
  have hsource : source = (before ++ plain) ++ '<' :: opener.char :: (body ++ '>' :: after) := by
    rw [h, hmarker, List.append_assoc]
  have hbody := slice?_body hsource
  have hraw := slice?_raw hsource
  have hseek := seek_closed hsource
  rw [Text.byteLength_append] at hbody hraw hseek
  cases hclass : Marker.classify opener body with
  | error f =>
    refine ⟨[.text plain, .fault f ⟨byteLength before + byteLength plain, closed⟩], none, ?_, ?_⟩
    · simp only [round?, hfrom, hend, hbody, hclass, hclosed, Option.pure_def, Option.bind_eq_bind,
        Option.bind_some]
      cases f with
      | unknownMarker text =>
        rw [hraw, text_of_unknownMarker hclass]
        rfl
      | _ => rfl
    · rw [Leaves, Piece.scan_eq, hnext, hclosed]
      simp only [htext, hclass]
  | ok m =>
    obtain ⟨passed, hpassed⟩ : ∃ p, p = plain ++ '<' :: opener.char :: (body ++ ['>']) := ⟨_, rfl⟩
    have hcs : cs = passed ++ after := by simp [hpassed, hmarker]
    have hne : passed ≠ [] := by simp [hpassed]
    have hcursor : closed = byteLength (before ++ passed) := by
      rw [hclosed, hpassed, Text.byteLength_append, Text.byteLength_append,
        Piece.byteLength_marker, Text.byteLength_nil]
      omega
    cases m with
    | directive d =>
      refine ⟨[.text plain, .directive d ⟨byteLength before + byteLength plain, closed⟩],
        some (closed, false), ?_, passed, after, hcs, hne, hcursor, ?_⟩
      · simp only [round?, hfrom, hend, hbody, hclass, hseek, hclosed, Option.pure_def,
          Option.bind_eq_bind, Option.bind_some]
      · rw [hclosed]
        exact Piece.scan_directive hnext htext hclass
    | layout l =>
      obtain ⟨skipped, hskipped⟩ := l.exists_skipped after
      have hafter : source = (before ++ passed) ++ after := by rw [h, hcs, List.append_assoc]
      have hskip := skip?_eq hafter l
      rw [← hcursor, hclosed] at hskip
      refine ⟨[.text plain, .text (l.text (afterSkip && plain.isEmpty))],
        some (closed + (byteLength after - byteLength (l.skip after)), l == .skipSpace),
        ?_, passed ++ skipped, l.skip after, ?_, ?_, ?_, ?_⟩
      · simp only [round?, hfrom, hend, hbody, hclass, hseek, hskip, hclosed, Option.pure_def,
          Option.bind_eq_bind, Option.bind_some]
      · rw [List.append_assoc, ← hskipped, hcs]
      · simp [hne]
      · have hlength := congrArg byteLength hskipped
        rw [Text.byteLength_append] at hlength
        rw [← List.append_assoc, Text.byteLength_append, ← hcursor]
        omega
      · rw [hclosed]
        exact Piece.scan_layout hnext htext hclass

theorem round?_eq {cs : List Char} (h : source = before ++ cs) (afterSkip : Bool) :
    ∃ pieces next, round? source (byteLength before) afterSkip = some (pieces, next) ∧
      Leaves before cs pieces (Piece.scan (byteLength before) afterSkip cs) next := by
  have hseen : source = before ++ [].reverse ++ cs := by simpa using h
  have hfrom := nextMarkerFrom?_eq hseen
  rw [List.reverse_nil, List.append_nil] at hfrom
  cases hnext : Piece.nextMarker [] cs with
  | mk plain opened =>
    rw [hnext] at hfrom
    cases opened with
    | none =>
      refine ⟨[.text plain], none, ?_, ?_⟩
      · simp only [round?, hfrom, Option.pure_def, Option.bind_eq_bind, Option.bind_some]
      · rw [Leaves, Piece.scan_eq, hnext]
    | some x =>
      obtain ⟨opener, rest⟩ := x
      dsimp only at hfrom
      have hcs := (Piece.exists_of_nextMarker hnext).1
      have hopened : source = (before ++ plain) ++ '<' :: opener.char :: rest := by
        rw [h, hcs, List.append_assoc]
      have hend := markerEnd?_eq hopened
      rw [Text.byteLength_append] at hend
      cases htext : Piece.markerText rest with
      | none =>
        rw [htext, Option.map_none] at hend
        refine ⟨[.text plain, .fault .unterminatedMarker
          ⟨byteLength before + byteLength plain, byteLength source⟩], none, ?_, ?_⟩
        · simp only [round?, hfrom, hend, Option.pure_def, Option.bind_eq_bind, Option.bind_some]
        · have hstop : byteLength before + byteLength plain + 2 + byteLength rest =
              byteLength source := by
            rw [hopened, Text.byteLength_append, Text.byteLength_append, Text.byteLength_cons,
              Text.byteLength_cons, Opener.utf8Size_char]
            change _ = _ + (1 + (1 + _))
            omega
          rw [Leaves, Piece.scan_eq, hnext]
          dsimp only
          rw [htext, hstop]
      | some y =>
        obtain ⟨body, after⟩ := y
        rw [htext, Option.map_some] at hend
        exact round?_marker h hnext htext hfrom hend

theorem scanFrom?_eq {cs : List Char} (h : source = before ++ cs) (afterSkip : Bool) :
    scanFrom? source (byteLength before) afterSkip =
      some (Piece.scan (byteLength before) afterSkip cs) := by
  induction hn : cs.length using Nat.strongRecOn generalizing before cs afterSkip with
  | ind n ih =>
    rw [scanFrom?]
    split
    · obtain ⟨pieces, next, hround, hleaves⟩ := round?_eq h afterSkip
      rw [hround]
      cases next with
      | none => exact congrArg some hleaves.symm
      | some next =>
        obtain ⟨passed, rest, rfl, hne, hcursor, hall⟩ := hleaves
        have hpos : 0 < byteLength passed := by
          apply Nat.pos_of_ne_zero
          exact fun hzero => hne (Text.eq_nil_of_byteLength_eq_zero hzero)
        have hlt : rest.length < n := by
          rw [← hn, List.length_append]
          have := List.length_pos_iff.mpr hne
          omega
        have hrest := ih rest.length hlt (by rw [h, List.append_assoc]) next.2 rfl
        dsimp only
        rw [if_pos (by rw [hcursor, Text.byteLength_append]; omega), hcursor, hrest, hall, hcursor]
        rfl
    · next hend =>
      have hcs : cs = [] := by
        apply Text.eq_nil_of_byteLength_eq_zero
        rw [h, Text.byteLength_append] at hend
        omega
      rw [hcs, Piece.scan_eq]
      rfl

/-- Scanning by bytes finds the pieces of a source. -/
theorem scanFrom?_source (source : List Char) :
    scanFrom? source 0 false = some (Piece.ofSource source) :=
  scanFrom?_eq (List.nil_append source).symm false

end TemplateEngine.Scanner

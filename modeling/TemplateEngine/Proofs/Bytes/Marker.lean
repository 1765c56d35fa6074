import TemplateEngine.Proofs.Bytes.Slice
import TemplateEngine.Proofs.Debug.Scan

/-! Finding a marker by the bytes of a source: where the next one opens, and the `>` that ends it.
The places are those of the characters. -/
namespace TemplateEngine

open Text (utf8 byteOf byteLength slice? sliceFrom? bytesFrom? findBytes?)

theorem Text.lt_of_findBytes? {word bytes : List UInt8} {place : Nat} (hword : word ≠ [])
    (h : findBytes? word bytes = some place) : place < bytes.length := by
  induction bytes generalizing place with
  | nil =>
    rw [findBytes?, if_neg hword] at h
    cases h
  | cons b bytes ih =>
    rw [findBytes?] at h
    split at h
    · cases h
      exact Nat.succ_pos _
    · obtain ⟨place, hplace, rfl⟩ := Option.map_eq_some_iff.mp h
      exact Nat.succ_lt_succ (ih hplace)

def Opener.ofByte? (b : UInt8) : Option Opener :=
  if b = byteOf '&' then some .variable
  else if b = byteOf ':' then some .directive
  else if b = byteOf '.' then some .closer
  else none

namespace Scanner

/-- The text from `start` to the next marker and, if there is one, how it opens and where. The `<`
of the marker is looked for from `search` on. -/
def nextMarkerFrom? (source : List Char) (start search : Nat) :
    Option (List Char × Option (Opener × Nat)) :=
  if search ≤ byteLength source then
    match hfound : findBytes? (utf8 ['<']) ((utf8 source).drop search) with
    | none => (sliceFrom? source start).map (·, none)
    | some place =>
      have : search + place < byteLength source := by
        have hlt := Text.lt_of_findBytes? (by decide) hfound
        rw [List.length_drop, Text.length_utf8] at hlt
        omega
      match (utf8 source)[search + place + 1]?.bind Opener.ofByte? with
      | none => nextMarkerFrom? source start (search + place + 1)
      | some opener =>
        (slice? source start (search + place)).map (·, some (opener, search + place))
  else none
termination_by byteLength source + 1 - search

/-- What a byte does to the number of open brackets and to the quotes, and how many bytes after it
are passed over unseen. Nothing if the byte ends the marker. -/
def endStep (depth : Nat) (quote : Option UInt8) (b : UInt8) : Option (Nat × Option UInt8 × Nat) :=
  match quote with
  | some q =>
    if b = byteOf '\\' then some (depth, some q, 1)
    else if b = q then some (depth, none, 0)
    else some (depth, some q, 0)
  | none =>
    if b = byteOf '\x22' ∨ b = byteOf '\x27' then some (depth, some b, 0)
    else if b = byteOf '(' ∨ b = byteOf '[' then some (depth + 1, none, 0)
    else if b = byteOf ')' ∨ b = byteOf ']' then some (depth - 1, none, 0)
    else if b = byteOf '>' ∧ depth = 0 then none
    else some (depth, none, 0)

/-- The place of the `>` that ends a marker, looked for from `i` on. -/
def endFrom? (bytes : List UInt8) (depth : Nat) (quote : Option UInt8) (i : Nat) :
    Option (Option Nat) :=
  if i < bytes.length then
    match bytes[i]? with
    | none => none
    | some b =>
      match endStep depth quote b with
      | none => some (some i)
      | some (depth, quote, unseen) => endFrom? bytes depth quote (i + unseen + 1)
  else some none
termination_by bytes.length - i

/-- The place at which the marker that opens at `start` ends, if it does. -/
def markerEnd? (source : List Char) (start : Nat) : Option (Option Nat) :=
  if ((utf8 source).drop (start + 2)).take 2 = utf8 ['-', '-'] then
    (bytesFrom? (utf8 source) (start + 2)).map fun rest =>
      (findBytes? (utf8 ['>']) rest).map (start + 2 + ·)
  else endFrom? (utf8 source) 0 none (start + 2)

end Scanner

/-! Looking for the next marker. -/

theorem Opener.ofByte?_byteOf {c : Char} (hc : Text.isAscii c) :
    ofByte? (byteOf c) = ofChar? c := by
  simp only [ofByte?, ofChar?, Text.byteOf_inj hc (by decide : Text.isAscii '&' = true),
    Text.byteOf_inj hc (by decide : Text.isAscii ':' = true),
    Text.byteOf_inj hc (by decide : Text.isAscii '.' = true)]

/-- The first byte of a character opens a marker if the character does. -/
theorem Opener.ofByte?_utf8 (c : Char) (cs : List Char) :
    (utf8 (c :: cs))[0]?.bind ofByte? = ofChar? c := by
  by_cases hc : Text.isAscii c
  · rw [Text.utf8_cons, Text.utf8EncodeChar_of_isAscii hc]
    exact ofByte?_byteOf hc
  · obtain ⟨b, bytes, hbytes, -⟩ := Text.exists_utf8EncodeChar c
    have hascii := Bool.eq_false_iff.mpr hc
    have hb : 0x80 ≤ b := Text.le_of_mem_utf8EncodeChar hascii (hbytes ▸ List.mem_cons_self)
    have hchar (d : Char) (hd : Text.isAscii d) : c ≠ d := by
      rintro rfl
      exact hc hd
    have hbyte (d : Char) (hd : Text.isAscii d) := Text.ne_byteOf_of_le hd hb
    rw [Text.utf8_cons, hbytes, ofChar?, if_neg (hchar '&' rfl), if_neg (hchar ':' rfl),
      if_neg (hchar '.' rfl)]
    change ofByte? b = none
    rw [ofByte?, if_neg (hbyte '&' rfl), if_neg (hbyte ':' rfl), if_neg (hbyte '.' rfl)]

theorem Piece.nextMarker_append {passed : List Char} (h : '<' ∉ passed) (seen cs : List Char) :
    nextMarker seen (passed ++ cs) = nextMarker (passed.reverse ++ seen) cs := by
  induction passed generalizing seen with
  | nil => rfl
  | cons c passed ih =>
    rw [List.mem_cons, not_or] at h
    obtain ⟨hc, hpassed⟩ := h
    rw [List.cons_append, nextMarker_of_ne (Ne.symm hc), ih hpassed, List.reverse_cons,
      List.append_assoc, List.singleton_append]

namespace Scanner

variable {source before : List Char}

theorem drop_utf8 {cs : List Char} (h : source = before ++ cs) :
    (utf8 source).drop (byteLength before) = utf8 cs := by
  rw [h, Text.utf8_append, List.drop_left' (Text.length_utf8 _)]

/-- One step of looking for a marker, in a source of which `cs` is still to be looked at. -/
theorem nextMarkerFrom?_step {cs : List Char} (h : source = before ++ cs) (start : Nat) :
    nextMarkerFrom? source start (byteLength before) =
      match Text.splitOnce '<' cs with
      | none => (sliceFrom? source start).map (·, none)
      | some (passed, rest) =>
        match rest.head?.bind Opener.ofChar? with
        | none => nextMarkerFrom? source start (byteLength before + byteLength passed + 1)
        | some opener =>
          (slice? source start (byteLength before + byteLength passed)).map
            (·, some (opener, byteLength before + byteLength passed)) := by
  have hfind : findBytes? (utf8 ['<']) ((utf8 source).drop (byteLength before)) =
      Text.find? ['<'] cs := by
    rw [drop_utf8 h, Text.findBytes?_utf8 (by decide) (List.forall_mem_nil _)]
  have hle : byteLength before ≤ byteLength source := by
    rw [h, Text.byteLength_append]
    omega
  rw [nextMarkerFrom?, if_pos hle]
  cases hcut : Text.splitOnce '<' cs with
  | none =>
    have hnone : Text.find? ['<'] cs = none := by
      rw [Text.find?, ← Text.splitOnce, hcut]
      rfl
    rw [hnone] at hfind
    split
    · rfl
    · next hfound =>
      rw [hfound] at hfind
      cases hfind
  | some x =>
    obtain ⟨passed, rest⟩ := x
    have hsome : Text.find? ['<'] cs = some (byteLength passed) := by
      rw [Text.find?, ← Text.splitOnce, hcut]
      rfl
    have hbyte : (utf8 source)[byteLength before + byteLength passed + 1]?.bind Opener.ofByte? =
        rest.head?.bind Opener.ofChar? := by
      have hcs := Text.splitOnce_eq_some hcut
      have hplace : byteLength before + byteLength passed + 1 =
          byteLength (before ++ (passed ++ ['<'])) := by
        simp only [Text.byteLength_append, Nat.add_assoc]
        rfl
      have hsource : source = before ++ (passed ++ ['<']) ++ rest := by
        rw [h, hcs]
        simp
      rw [hplace, hsource, Text.getElem?_utf8]
      cases rest with
      | nil => rfl
      | cons c rest => exact Opener.ofByte?_utf8 c rest
    rw [hsome] at hfind
    split
    · next hfound =>
      rw [hfound] at hfind
      cases hfind
    · next place hfound =>
      rw [hfound] at hfind
      cases hfind
      dsimp only
      rw [hbyte]

theorem nextMarkerFrom?_eq {seen cs : List Char} (h : source = before ++ seen.reverse ++ cs) :
    nextMarkerFrom? source (byteLength before) (byteLength (before ++ seen.reverse)) =
      match Piece.nextMarker seen cs with
      | (plain, none) => some (plain, none)
      | (plain, some (opener, _)) =>
        some (plain, some (opener, byteLength before + byteLength plain)) := by
  induction hn : cs.length using Nat.strongRecOn generalizing seen cs with
  | ind n ih =>
    rw [nextMarkerFrom?_step h]
    cases hcut : Text.splitOnce '<' cs with
    | none =>
      have hnot : '<' ∉ cs := by
        rw [Text.splitOnce, Text.cut_eq_none_iff (by simp), List.singleton_infix_iff] at hcut
        exact hcut
      have hnext := Piece.nextMarker_append hnot seen []
      rw [List.append_nil, Piece.nextMarker] at hnext
      rw [hnext, Text.sliceFrom?_of_eq (t := seen.reverse ++ cs) (by rw [h, List.append_assoc]) rfl]
      simp
    | some x =>
      obtain ⟨passed, rest⟩ := x
      obtain ⟨rfl, hnot⟩ := Text.splitOnce_eq_some_iff.mp hcut
      rw [Piece.nextMarker_append hnot]
      have htext : before ++ seen.reverse ++ (passed ++ '<' :: rest) =
          before ++ ((passed.reverse ++ seen).reverse ++ '<' :: rest) := by simp
      have hplace : byteLength (before ++ seen.reverse) + byteLength passed =
          byteLength before + byteLength (passed.reverse ++ seen).reverse := by
        simp [Nat.add_assoc]
      rw [htext] at h
      dsimp only
      rw [hplace]
      cases hopener : rest.head?.bind Opener.ofChar? with
      | some opener =>
        obtain ⟨c, hc, hc'⟩ := Option.bind_eq_some_iff.mp hopener
        obtain ⟨tail, rfl⟩ : ∃ tail, rest = c :: tail :=
          ⟨rest.tail, (List.cons_head?_tail hc).symm⟩
        simp only [Piece.nextMarker, hc', Text.slice?_of_eq h rfl rfl, Option.map_some]
      | none =>
        have hnext : Piece.nextMarker (passed.reverse ++ seen) ('<' :: rest) =
            Piece.nextMarker ('<' :: (passed.reverse ++ seen)) rest := by
          cases rest with
          | nil => rfl
          | cons c tail => exact Piece.nextMarker_of_text hopener
        have hlt : rest.length < n := by
          rw [← hn, List.length_append, List.length_cons]
          omega
        rw [hnext, ← ih rest.length hlt (by simpa using h) rfl]
        simp [Nat.add_assoc]
        rfl

/-! Looking for the end of a marker. -/

/-- Quotes are ASCII characters, and a backslash counts only within them. -/
def Quoting (n : Text.Nesting) : Prop :=
  (∀ q, n.quote = some q → Text.isAscii q) ∧ (n.escaped → n.quote.isSome)

theorem Quoting.step {n : Text.Nesting} (h : Quoting n) (c : Char) : Quoting (n.step c) := by
  obtain ⟨depth, quote, escaped⟩ := n
  obtain ⟨hascii, hescaped⟩ := h
  unfold Text.Nesting.step
  cases quote with
  | some q =>
    dsimp only
    split_ifs with hafter
    · exact ⟨hascii, nofun⟩
    · exact ⟨hascii, fun _ => rfl⟩
    · exact ⟨nofun, fun h => absurd h hafter⟩
    · exact ⟨hascii, hescaped⟩
  | none =>
    dsimp only
    split_ifs with hmark
    · refine ⟨fun q hq => ?_, fun _ => rfl⟩
      cases hq
      obtain hc | hc := Bool.or_eq_true_iff.mp hmark
      · rw [of_decide_eq_true hc]
        rfl
      · rw [of_decide_eq_true hc]
        rfl
    all_goals exact ⟨hascii, hescaped⟩

/-- After a backslash any character is passed over. -/
theorem Quoting.of_escaped {n : Text.Nesting} (h : Quoting n) (hescaped : n.escaped) (c : Char) :
    (n.isTop && c == '>') = false ∧ n.step c = { n with escaped := false } := by
  obtain ⟨q, hq⟩ := Option.isSome_iff_exists.mp (h.2 hescaped)
  simp [Text.Nesting.isTop, Text.Nesting.step, hq, hescaped]

/-- No character but ASCII ones matters. -/
theorem Quoting.of_not_ascii {n : Text.Nesting} (h : Quoting n) (hescaped : n.escaped = false)
    {c : Char} (hc : Text.isAscii c = false) :
    (n.isTop && c == '>') = false ∧ n.step c = n := by
  have hne (d : Char) (hd : Text.isAscii d) : c ≠ d := by
    rintro rfl
    exact absurd hd (Bool.eq_false_iff.mp hc)
  refine ⟨by simp [hne '>' rfl], ?_⟩
  unfold Text.Nesting.step
  cases hq : n.quote with
  | some q => simp [hescaped, hne '\\' rfl, hne q (h.1 q hq)]
  | none =>
    simp [hne '\x22' rfl, hne '\x27' rfl, hne '(' rfl, hne '[' rfl, hne ')' rfl, hne ']' rfl]

/-- A byte that is no ASCII character's is passed over. -/
theorem endStep_of_le {depth : Nat} {quote : Option UInt8} {b : UInt8}
    (hquote : ∀ q, quote = some q → q < 0x80) (hb : 0x80 ≤ b) :
    endStep depth quote b = some (depth, quote, 0) := by
  have hne (c : Char) (hc : Text.isAscii c) := Text.ne_byteOf_of_le hc hb
  unfold endStep
  cases quote with
  | some q =>
    have hq : b ≠ q := by
      rintro rfl
      exact absurd (hquote b rfl) (UInt8.not_lt.mpr hb)
    simp only [hne '\\' rfl, hq, if_false]
  | none =>
    simp only [hne '\x22' rfl, hne '\x27' rfl, hne '(' rfl, hne '[' rfl, hne ')' rfl, hne ']' rfl,
      hne '>' rfl, or_self, false_and, if_false]

/-- An ASCII character is one step. -/
theorem endStep_byteOf {n : Text.Nesting} (hn : Quoting n) (hescaped : n.escaped = false) {c : Char}
    (hc : Text.isAscii c) :
    endStep n.depth (n.quote.map byteOf) (byteOf c) =
      if n.isTop && c == '>' then none
      else some ((n.step c).depth, (n.step c).quote.map byteOf,
        if (n.step c).escaped then 1 else 0) := by
  have hinj (d : Char) (hd : Text.isAscii d) : byteOf c = byteOf d ↔ c = d := Text.byteOf_inj hc hd
  obtain ⟨depth, quote, escaped⟩ := n
  obtain rfl : escaped = false := hescaped
  cases quote with
  | some q =>
    simp only [endStep, Option.map_some, hinj '\\' rfl, hinj q (hn.1 q rfl), Text.Nesting.step,
      Text.Nesting.isTop, Option.isNone_some, Bool.false_and, Bool.false_eq_true, if_false]
    split_ifs <;> simp_all
  | none =>
    simp only [endStep, Option.map_none, hinj '\x22' rfl, hinj '\x27' rfl, hinj '(' rfl,
      hinj '[' rfl, hinj ')' rfl, hinj ']' rfl, hinj '>' rfl, Text.Nesting.step,
      Text.Nesting.isTop, Option.isNone_none, Bool.true_and, Bool.and_eq_true, beq_iff_eq,
      Bool.or_eq_true, decide_eq_true_eq]
    split_ifs <;> simp_all

section EndFrom

variable {bytes : List UInt8} {depth : Nat} {quote : Option UInt8} {i : Nat}

theorem endFrom?_of_length_le (h : bytes.length ≤ i) :
    endFrom? bytes depth quote i = some none := by
  rw [endFrom?, if_neg (Nat.not_lt.mpr h)]

theorem endFrom?_of_drop {b : UInt8} {rest : List UInt8} (h : bytes.drop i = b :: rest) :
    endFrom? bytes depth quote i =
      match endStep depth quote b with
      | none => some (some i)
      | some (depth, quote, unseen) => endFrom? bytes depth quote (i + unseen + 1) := by
  have hlt : i < bytes.length := by
    apply Nat.lt_of_not_le
    intro hle
    rw [List.drop_of_length_le hle] at h
    cases h
  have hget : bytes[i]? = some b := by
    rw [← List.head?_drop, h]
    rfl
  rw [endFrom?, if_pos hlt, hget]

theorem endFrom?_skip {passed rest : List UInt8} (h : bytes.drop i = passed ++ rest)
    (hpassed : ∀ b ∈ passed, 0x80 ≤ b) (hquote : ∀ q, quote = some q → q < 0x80) :
    endFrom? bytes depth quote i = endFrom? bytes depth quote (i + passed.length) := by
  induction passed generalizing i with
  | nil => rfl
  | cons b passed ih =>
    obtain ⟨hb, hpassed⟩ := List.forall_mem_cons.mp hpassed
    have hdrop : bytes.drop (i + 1) = passed ++ rest := by
      rw [← List.tail_drop, h]
      rfl
    rw [endFrom?_of_drop h, endStep_of_le hquote hb]
    dsimp only
    rw [Nat.add_zero, ih hdrop hpassed, List.length_cons, Nat.add_assoc, Nat.add_comm 1]

/-- Going through the bytes finds what going through the characters finds. After a backslash only
the first byte of a character is passed over unseen, and the others do nothing. -/
theorem endFrom?_eq {n : Text.Nesting} (hn : Quoting n) {base : Nat} {seen cs : List Char}
    (hdrop : bytes.drop i = utf8 cs) (hi : i = base + byteLength seen.reverse) :
    endFrom? bytes n.depth (n.quote.map byteOf) (if n.escaped then i + 1 else i) =
      some ((n.cutFrom '>' seen cs).map fun (body, _) => base + byteLength body) := by
  induction cs generalizing n seen i with
  | nil =>
    have hle : bytes.length ≤ i := List.drop_eq_nil_iff.mp hdrop
    rw [Text.Nesting.cutFrom, endFrom?_of_length_le (by split <;> omega)]
    rfl
  | cons c cs ih =>
    obtain ⟨b, tail, hbytes, htail⟩ := Text.exists_utf8EncodeChar c
    have hquote : ∀ q, n.quote.map byteOf = some q → q < 0x80 := by
      intro q hq
      obtain ⟨d, hd, rfl⟩ := Option.map_eq_some_iff.mp hq
      exact Text.byteOf_lt (hn.1 d hd)
    rw [Text.utf8_cons, hbytes, List.cons_append] at hdrop
    have hrest : bytes.drop (i + 1) = tail ++ utf8 cs := by
      rw [← List.tail_drop, hdrop]
      rfl
    have hsize : tail.length + 1 = c.utf8Size := by
      rw [← String.length_utf8EncodeChar, hbytes, List.length_cons]
    have hnext : bytes.drop (i + 1 + tail.length) = utf8 cs := by
      rw [← List.drop_drop, hrest, List.drop_left]
    have hplace : i + 1 + tail.length = base + byteLength (c :: seen).reverse := by
      rw [List.reverse_cons, Text.byteLength_append, Text.byteLength_cons, Text.byteLength_nil, hi]
      omega
    have hih := ih (hn.step c) hnext hplace
    rw [Text.Nesting.cutFrom]
    by_cases hescaped : n.escaped
    · obtain ⟨htop, hstep⟩ := hn.of_escaped hescaped c
      rw [hstep] at hih ⊢
      rw [htop, hescaped, if_pos rfl, endFrom?_skip hrest htail hquote]
      exact hih
    · rw [if_neg hescaped]
      have hescaped := Bool.eq_false_iff.mpr hescaped
      by_cases hc : Text.isAscii c
      · rw [Text.utf8EncodeChar_of_isAscii hc] at hbytes
        cases hbytes
        rw [endFrom?_of_drop hdrop, endStep_byteOf hn hescaped hc]
        cases n.isTop && c == '>' with
        | true =>
          rw [if_pos rfl, if_pos rfl, hi]
          rfl
        | false =>
          rw [if_neg Bool.false_ne_true, if_neg Bool.false_ne_true, ← hih]
          dsimp only
          cases (n.step c).escaped <;> rfl
      · have hc := Bool.eq_false_iff.mpr hc
        obtain ⟨htop, hstep⟩ := hn.of_not_ascii hescaped hc
        rw [← List.cons_append, ← hbytes] at hdrop
        rw [hstep, hescaped] at hih
        rw [htop, hstep, endFrom?_skip hdrop (fun _ => Text.le_of_mem_utf8EncodeChar hc) hquote,
          hbytes, List.length_cons, ← Nat.add_assoc, Nat.add_right_comm]
        exact hih

end EndFrom

/-- A marker ends where its text does. -/
theorem markerEnd?_eq {opener : Opener} {rest : List Char}
    (h : source = before ++ '<' :: opener.char :: rest) :
    markerEnd? source (byteLength before) =
      some ((Piece.markerText rest).map fun parts =>
        byteLength before + 2 + byteLength parts.1) := by
  have hopen : byteLength (before ++ ['<', opener.char]) = byteLength before + 2 := by
    rw [Text.byteLength_append, Text.byteLength_cons, Text.byteLength_cons, Opener.utf8Size_char]
    rfl
  have hsource : source = (before ++ ['<', opener.char]) ++ rest := by
    rw [h, List.append_assoc]
    rfl
  have hdrop := drop_utf8 hsource
  have hcomment : ((utf8 rest).take 2 = utf8 ['-', '-']) ↔ ['-', '-'] <+: rest := by
    have hascii : ∀ c ∈ ['-', '-'], Text.isAscii c := List.all_eq_true.mp rfl
    rw [eq_comm]
    change utf8 ['-', '-'] = (utf8 rest).take (utf8 ['-', '-']).length ↔ _
    rw [← List.prefix_iff_eq_take, ← List.isPrefixOf_iff_prefix, Text.isPrefixOf_utf8 hascii,
      Option.isSome_iff_exists]
    simp only [Text.stripPrefix?_eq_some_iff]
    exact exists_congr fun after => eq_comm
  rw [hopen] at hdrop
  rw [markerEnd?, hdrop]
  split
  · next hdashes =>
    rw [Piece.markerText_of_comment (hcomment.mp hdashes), Text.bytesFrom?_of_eq hsource hopen.symm,
      Option.map_some, Text.findBytes?_utf8 (by decide) (List.forall_mem_nil _), Text.find?,
      Option.map_map]
    rfl
  · next hdashes =>
    rw [Piece.markerText_of_not_comment fun h => hdashes (hcomment.mpr h)]
    exact endFrom?_eq (n := {}) ⟨nofun, nofun⟩ hdrop rfl

end Scanner

end TemplateEngine

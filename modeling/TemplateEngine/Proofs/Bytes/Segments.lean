import TemplateEngine.Proofs.Bytes.Compile
import TemplateEngine.Proofs.Segments.InFile

/-! Cutting a file into segments by its bytes. -/
namespace TemplateEngine

open Text (byteLength utf8 find? findBytes? bytesFrom? slice? sliceFrom?)

namespace Segment

/-- The place at which a word occurs first from `start` on. -/
def findFrom? (word source : List Char) (start : Nat) : Option (Option Nat) :=
  (bytesFrom? (utf8 source) start).map fun rest => (findBytes? (utf8 word) rest).map (start + ·)

/-- Where the body of a segment starts whose header ends before `start`. -/
def bodyStart? (source : List Char) (start : Nat) : Option Nat :=
  (sliceFrom? source start).map fun rest =>
    if (Text.stripPrefix? ['\r', '\n'] rest).isSome then start + 2
    else if (Text.stripPrefix? ['\n'] rest).isSome then start + 1
    else start

/-- The segment that is opened at `start`, and the place after its closing. -/
def read? (names : List String) (source : List Char) (start : Nat) :
    Lookup (Fault × Text.Span) (Segment × Nat) := do
  let headerStart := start + byteLength opening
  match find? ['>'] (← sliceFrom? source headerStart) with
  | none => throw (.unterminatedMarker, ⟨start, byteLength source⟩)
  | some length =>
    let headerStop := headerStart + length + 1
    let span : Text.Span := ⟨start, headerStop⟩
    match readHeader (← slice? source headerStart (headerStart + length)) with
    | .error reason => throw (.invalidSegmentHeader reason, span)
    | .ok (name, params) =>
      if names.contains name then throw (.duplicateTemplate name, span)
      else
        let offset ← bodyStart? source headerStop
        match find? closing (← sliceFrom? source offset) with
        | none => throw (.unterminatedSegment, span)
        | some length =>
          let body ← slice? source offset (offset + length)
          match find? opening body with
          | some place =>
            let nested := offset + place
            throw (.nestedSegment name, ⟨nested, nested + byteLength opening⟩)
          | none =>
            return (⟨name, params, Text.dropLastLineBreak body, offset⟩,
              offset + length + byteLength closing)

def stray (place : Nat) : Fault × Text.Span :=
  (.straySegmentCloser, ⟨place, place + byteLength closing⟩)

/-- The segments from `start` on. Goes on as long as each one ends behind its beginning and within
the source. -/
def splitFrom? (names : List String) (source : List Char) (start : Nat) :
    Lookup (Fault × Text.Span) (List Segment) := do
  let opened ← findFrom? opening source start
  let closed ← findFrom? closing source start
  match opened, closed with
  | none, none => return []
  | none, some place => throw (stray place)
  | some place, closed =>
    match closed.filter (· ≤ place) with
    | some early => throw (stray early)
    | none =>
      let (s, next) ← read? names source place
      if _ : start < next ∧ next ≤ byteLength source then
        return s :: (← splitFrom? (s.name :: names) source next)
      else ExceptT.mk none
termination_by byteLength source - start

end Segment

def splitSegments? (sourceName : String) (source : List Char) : Lookup Malformed (List Segment) :=
  ExceptT.mk do
    match ← (Segment.splitFrom? [] source 0).run with
    | .ok segments => return .ok segments
    | .error (f, span) => return .error (← Malformed.ofSpan? sourceName source span f)

namespace Segment

variable {source before : List Char}

theorem findFrom?_eq {word cs : List Char} (hne : word ≠ []) (hword : ∀ d ∈ word, Text.isAscii d)
    (h : source = before ++ cs) :
    findFrom? word source (byteLength before) =
      some ((find? word cs).map (byteLength before + ·)) := by
  obtain ⟨c, word, rfl⟩ := List.exists_cons_of_ne_nil hne
  obtain ⟨hc, hword⟩ := List.forall_mem_cons.mp hword
  rw [findFrom?, Text.bytesFrom?_of_eq h rfl, Option.map_some, Text.findBytes?_utf8 hc hword]

/-- A body starts at its own text, after a line break or not. -/
theorem exists_of_bodyStart? {rest : List Char} (h : source = before ++ rest) :
    ∃ start, bodyStart? source (byteLength before) = some (byteLength start) ∧
      source = start ++ Text.dropLineBreak rest ∧
      byteLength before + (byteLength rest - byteLength (Text.dropLineBreak rest)) =
        byteLength start := by
  obtain ⟨lineBreak, hbreak⟩ := Layout.exists_skipped .skipNewline rest
  change rest = lineBreak ++ Text.dropLineBreak rest at hbreak
  have hsource : source = before ++ lineBreak ++ Text.dropLineBreak rest := by
    rw [List.append_assoc, ← hbreak, h]
  have hoffset : byteLength before + (byteLength rest - byteLength (Text.dropLineBreak rest)) =
      byteLength (before ++ lineBreak) := by
    have hlength := congrArg byteLength hbreak
    rw [Text.byteLength_append] at hlength ⊢
    omega
  refine ⟨before ++ lineBreak, ?_, hsource, hoffset⟩
  rw [← hoffset, bodyStart?, Text.sliceFrom?_of_eq h rfl, Option.map_some,
    Text.byteLength_lineBreak]
  split_ifs <;> rfl

/-- Where a word occurs first, the text can be cut. -/
theorem slice?_of_cut {word cs first rest : List Char} (h : source = before ++ cs)
    (hcut : Text.cut word cs = some (first, rest)) :
    find? word cs = some (byteLength first) ∧
      slice? source (byteLength before) (byteLength before + byteLength first) = some first := by
  have hcs := Text.cut_eq_some hcut
  have hsource : source = before ++ (first ++ (word ++ rest)) := by
    rw [h, hcs, List.append_assoc]
  refine ⟨?_, Text.slice?_of_eq hsource rfl rfl⟩
  rw [find?, hcut]
  rfl

theorem find?_of_cut_eq_none {word cs : List Char} (h : Text.cut word cs = none) :
    find? word cs = none := by
  rw [find?, h]
  rfl

theorem read?_eq {cs : List Char} (h : source = before ++ (opening ++ cs)) (names : List String) :
    read? names source (byteLength before) =
      .total ((read names (byteLength before) cs).map fun x => (x.1, x.2.1)) := by
  have hopened : source = (before ++ opening) ++ cs := by rw [h, List.append_assoc]
  have hstop : byteLength source = byteLength before + byteLength opening + byteLength cs := by
    rw [hopened, Text.byteLength_append, Text.byteLength_append]
  unfold read? read
  dsimp only
  rw [← Text.byteLength_append before opening, Text.sliceFrom?_of_eq hopened rfl,
    Lookup.liftM_some_bind]
  cases hheader : Text.splitOnce '>' cs with
  | none =>
    rw [find?_of_cut_eq_none hheader, hstop, Text.byteLength_append]
    rfl
  | some x =>
    obtain ⟨header, rest⟩ := x
    obtain ⟨hfind, hslice⟩ := slice?_of_cut hopened hheader
    rw [hfind]
    dsimp only
    rw [hslice, Lookup.liftM_some_bind]
    cases readHeader header with
    | error reason => rfl
    | ok x =>
      obtain ⟨name, params⟩ := x
      dsimp only
      split
      · rfl
      · have hrest : source = (before ++ opening ++ header ++ ['>']) ++ rest := by
          rw [hopened, Text.splitOnce_eq_some hheader]
          simp
        have hstop : byteLength (before ++ opening) + byteLength header + 1 =
            byteLength (before ++ opening ++ header ++ ['>']) := by
          rw [Text.byteLength_append _ ['>'], Text.byteLength_append _ header]
          rfl
        obtain ⟨start, hstart, htext, hoffset⟩ := exists_of_bodyStart? hrest
        rw [hstop, hstart, Lookup.liftM_some_bind, hoffset, Text.sliceFrom?_of_eq htext rfl,
          Lookup.liftM_some_bind]
        cases hclosing : Text.cut closing (Text.dropLineBreak rest) with
        | none =>
          rw [find?_of_cut_eq_none hclosing]
          rfl
        | some x =>
          obtain ⟨body, after⟩ := x
          obtain ⟨hfind, hslice⟩ := slice?_of_cut htext hclosing
          rw [hfind]
          dsimp only
          rw [hslice, Lookup.liftM_some_bind, find?]
          cases Text.cut opening body <;> rfl

theorem splitFrom_eq (names : List String) (start : Nat) (cs : List Char) :
    splitFrom names start cs =
      match Text.cut opening cs, Text.cut closing cs with
      | none, none => .ok []
      | none, some (early, _) => .error (stray (start + byteLength early))
      | some (first, rest), closed =>
        match closed.filter fun c => c.1.length ≤ first.length with
        | some (early, _) => .error (stray (start + byteLength early))
        | none =>
          read names (start + byteLength first) rest >>= fun x =>
            (splitFrom (x.1.name :: names) x.2.1 x.2.2).map (x.1 :: ·) := by
  rw [splitFrom]
  split
  · next hopening hclosing =>
    rw [hopening, hclosing]
  · next hopening hclosing =>
    rw [hopening, hclosing]
    rfl
  · next first rest hopening =>
    simp only [hopening]
    cases (Text.cut closing cs).filter fun c => c.1.length ≤ first.length with
    | some x => rfl
    | none =>
      dsimp only
      split
      · next hread =>
        simp only [hread]
        rfl
      · next hread =>
        simp only [hread]
        rfl

/-- Of two first parts of a text, the one with no more characters has no more bytes. -/
theorem byteLength_le_iff {first first' rest rest' : List Char}
    (h : first ++ rest = first' ++ rest') :
    byteLength first ≤ byteLength first' ↔ first.length ≤ first'.length := by
  constructor
  · intro hle
    obtain ⟨more, rfl, -⟩ := Text.exists_of_byteLength_le h hle
    simp
  · intro hle
    obtain ⟨more, rfl⟩ := List.prefix_of_prefix_length_le ⟨rest, h⟩ (List.prefix_append _ _) hle
    simp

/-- Whether a closing stands before the first opening. -/
theorem early_of_cut {cs first rest : List Char} (h : cs = first ++ rest) (start : Nat) :
    (((Text.cut closing cs).map fun (early, _) => byteLength early).map (start + ·)).filter
        (· ≤ start + byteLength first) =
      ((Text.cut closing cs).filter fun c => c.1.length ≤ first.length).map
        fun c => start + byteLength c.1 := by
  cases hclosing : Text.cut closing cs with
  | none => rfl
  | some x =>
    obtain ⟨early, after⟩ := x
    have hcs := Text.cut_eq_some hclosing
    have hiff : start + byteLength early ≤ start + byteLength first ↔
        early.length ≤ first.length := by
      rw [Nat.add_le_add_iff_left]
      exact byteLength_le_iff (by rw [← List.append_assoc, ← hcs, h])
    simp only [Option.map_some, Option.filter_some, hiff]
    split_ifs <;> rfl

/-- A segment that is read ends where the rest of the text begins. -/
theorem exists_of_read {names : List String} {next : Nat} {rest after : List Char} {s : Segment}
    (h : read names (byteLength before) rest = .ok (s, next, after)) :
    ∃ through, before ++ (opening ++ rest) = through ++ after ∧
      byteLength before < byteLength through ∧ next = byteLength through := by
  rw [← Nat.zero_add (byteLength before)] at h
  obtain ⟨-, header, first, last, hstands, hnext⟩ := read_eq_ok_iff.mp h
  refine ⟨_, hstands.text, ?_, hnext.trans (Nat.zero_add _)⟩
  rw [Segment.through, Text.byteLength_append, Text.byteLength_append opening]
  have hopening : byteLength opening = 6 := by decide
  omega

theorem splitFrom?_eq {cs : List Char} (h : source = before ++ cs) (names : List String) :
    splitFrom? names source (byteLength before) =
      .total (splitFrom names (byteLength before) cs) := by
  induction hn : cs.length using Nat.strongRecOn generalizing before cs names with
  | ind n ih =>
    rw [splitFrom?, splitFrom_eq, findFrom?_eq (by decide) (List.all_eq_true.mp rfl) h,
      findFrom?_eq (by decide) (List.all_eq_true.mp rfl) h, Lookup.liftM_some_bind,
      Lookup.liftM_some_bind, find?, find?]
    cases hopening : Text.cut opening cs with
    | none => cases Text.cut closing cs <;> rfl
    | some x =>
      obtain ⟨first, rest⟩ := x
      have hcs := Text.cut_eq_some hopening
      have hsource : source = (before ++ first) ++ (opening ++ rest) := by
        rw [h, hcs]
        simp
      rw [Option.map_some, Option.map_some]
      dsimp only
      rw [early_of_cut (List.append_assoc _ _ _ ▸ hcs)]
      cases (Text.cut closing cs).filter fun c => c.1.length ≤ first.length with
      | some x => rfl
      | none =>
        rw [← Text.byteLength_append, Option.map_none, read?_eq hsource]
        cases hread : read names (byteLength (before ++ first)) rest with
        | error e => rfl
        | ok x =>
          obtain ⟨s, next, after⟩ := x
          obtain ⟨through, hthrough, hbefore, rfl⟩ := exists_of_read hread
          have hends : source = through ++ after := hsource.trans hthrough
          have hlt : byteLength before < byteLength through ∧
              byteLength through ≤ byteLength source := by
            rw [Text.byteLength_append] at hbefore
            rw [hends, Text.byteLength_append]
            omega
          have hlength : after.length < n := by
            have hshorter := read_length hread
            rw [← hn, hcs]
            simp only [List.length_append]
            omega
          dsimp only [Except.map]
          rw [Lookup.total_ok_bind]
          dsimp only
          rw [dif_pos hlt, ih after.length hlength hends _ rfl]
          change _ = Lookup.total ((splitFrom (s.name :: names) (byteLength through) after).map _)
          cases splitFrom (s.name :: names) (byteLength through) after <;> rfl

end Segment

theorem splitSegments?_eq (sourceName : String) (source : List Char) :
    splitSegments? sourceName source = .total (splitSegments sourceName source) := by
  have hsplit := Segment.splitFrom?_eq (List.nil_append source).symm []
  rw [Text.byteLength_nil] at hsplit
  unfold splitSegments? splitSegments
  rw [hsplit]
  cases Segment.splitFrom [] 0 source with
  | ok segments => rfl
  | error x =>
    obtain ⟨f, span⟩ := x
    simp only [Malformed.ofSpan?_eq]
    rfl

end TemplateEngine

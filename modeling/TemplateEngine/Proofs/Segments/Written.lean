import TemplateEngine.Proofs.Segments.InFile

/-! Files that are written from segments. Cutting such a file gives the segments back, and every
file that can be cut tells its segments by its marks. -/
namespace TemplateEngine

namespace Segment

/-- The name of a segment and its parameters, as they are written in its header. -/
def headerText (s : Segment) : List Char :=
  s.name.toList ++ ':' :: [','].intercalate (s.params.map String.toList)

/-- The line break that is written on either side of a body. -/
def lineBreak : List Char := ['\r', '\n']

/-- Segments with the text that comes after each of them, written one after another. Where they say
that their bodies are does not matter. -/
def writeFile (text : List Char) : List (Segment × List Char) → List Char
  | [] => text
  | (s, after) :: entries =>
    s.through text s.headerText lineBreak lineBreak ++ writeFile after entries

/-- The segments as they stand in the file that is written from them, which begins at the byte
`start`. -/
def placed (start : Nat) (text : List Char) : List (Segment × List Char) → List Segment
  | [] => []
  | (s, after) :: entries =>
    { s with
      offset :=
        start + Text.byteLength (text ++ (opening ++ (s.headerText ++ '>' :: lineBreak))) } ::
      placed (start + Text.byteLength (s.through text s.headerText lineBreak lineBreak)) after
        entries

/-- What a segment is that can be written. -/
structure Writable (s : Segment) : Prop where
  name : Text.isName s.name.toList
  params : ∀ p ∈ s.params, Text.isName p.toList
  body : Unmarked s.body

theorem not_mem_of_isName {c : Char} (hc : Text.isNamePart c = false) {cs : List Char}
    (hcs : Text.isName cs) : c ∉ cs := by
  intro hmem
  rw [Text.isNamePart_of_isName hcs hmem] at hc
  cases hc

/-- Names between commas are read as they are, and no text at all as no names. -/
theorem splitAll_intercalate {names : List (List Char)} (h : ∀ name ∈ names, Text.isName name) :
    ((Text.splitAll ',' ([','].intercalate names)).map Text.trim).filter (!·.isEmpty) = names := by
  have hsplit (hne : names ≠ []) : Text.splitAll ',' ([','].intercalate names) = names := by
    rw [Text.splitAll_eq_splitOn]
    exact List.splitOn_intercalate _
      (fun name hname => not_mem_of_isName (by decide) (h name hname)) hne
  cases names with
  | nil => rfl
  | cons name names =>
    rw [hsplit (List.cons_ne_nil _ _)]
    generalize name :: names = names at h
    induction names with
    | nil => rfl
    | cons name names ih =>
      obtain ⟨hname, hrest⟩ := List.forall_mem_cons.mp h
      rw [List.map_cons, Text.trim_of_isName hname, List.filter_cons_of_pos, ih hrest]
      cases name with
      | nil => cases hname
      | cons c name => rfl

theorem readHeader_headerText {s : Segment} (h : s.Writable) :
    readHeader s.headerText = .ok (s.name, s.params) := by
  have hcut : Text.splitOnce ':' s.headerText =
      some (s.name.toList, [','].intercalate (s.params.map String.toList)) :=
    Text.splitOnce_eq_some_iff.mpr ⟨rfl, not_mem_of_isName (by decide) h.name⟩
  have hnames : ∀ text ∈ s.params.map String.toList, Text.isName text := by
    simpa using h.params
  have hread : readParams (s.params.map String.toList) = .ok s.params :=
    readParams_eq_ok_iff.mpr ⟨hnames, by simp⟩
  unfold readHeader
  simp only [hcut, Option.getD_some, Text.trim_of_isName h.name, h.name, if_true,
    splitAll_intercalate hnames, hread, Except.map, String.ofList_toList]

theorem mem_intercalate {c sep : Char} {names : List (List Char)}
    (h : c ∈ [sep].intercalate names) : c = sep ∨ ∃ name ∈ names, c ∈ name := by
  induction names with
  | nil => cases h
  | cons name names ih =>
    cases names with
    | nil => exact .inr ⟨name, List.mem_cons_self, by simpa using h⟩
    | cons other names =>
      rw [List.intercalate_cons_cons, List.mem_append, List.mem_append] at h
      obtain (h | h) | h := h
      · exact .inr ⟨name, List.mem_cons_self, h⟩
      · exact .inl (List.mem_singleton.mp h)
      · refine (ih h).imp_right ?_
        rintro ⟨text, htext, hc⟩
        exact ⟨text, List.mem_cons_of_mem _ htext, hc⟩

theorem not_mem_headerText {s : Segment} (h : s.Writable) : '>' ∉ s.headerText := by
  intro hmem
  simp only [headerText, List.mem_append, List.mem_cons] at hmem
  obtain hmem | hmem | hmem := hmem
  · exact not_mem_of_isName (by decide) h.name hmem
  · cases hmem
  · obtain hsep | ⟨text, htext, hmem⟩ := mem_intercalate hmem
    · cases hsep
    · obtain ⟨p, hp, rfl⟩ := List.mem_map.mp htext
      exact not_mem_of_isName (by decide) (h.params p hp) hmem

theorem unmarked_append_lineBreak {cs : List Char} (h : Unmarked cs) :
    Unmarked (cs ++ lineBreak) := by
  have hnot {word : List Char} (hword : IsMark word) : ¬word <:+: cs ++ lineBreak := by
    rintro ⟨pre, post, hcs⟩
    rw [List.append_assoc] at hcs
    have hseam : ∀ d ∈ lineBreak.head?, d ∉ word.tail := by
      rintro d ⟨⟩
      obtain rfl | rfl := hword <;> decide
    obtain ⟨left, rfl, -⟩ | ⟨left, -, hbreak⟩ := Text.occurs_append hseam hcs.symm
    · exact h.not_infix hword ⟨pre, left, by simp⟩
    · have hlength := congrArg List.length hbreak
      simp only [List.length_append, hword.length, lineBreak, List.length_cons,
        List.length_nil] at hlength
      omega
  exact ⟨hnot (.inl rfl), hnot (.inr rfl)⟩

/-- A segment stands where it is written. -/
theorem standsIn_through {s : Segment} (h : s.Writable) (start : Nat) (text after : List Char) :
    { s with
      offset := start +
        Text.byteLength (text ++ (opening ++ (s.headerText ++ '>' :: lineBreak))) }.StandsIn start
      (s.through text s.headerText lineBreak lineBreak ++ after) text s.headerText lineBreak
      lineBreak after where
  text := rfl
  opened := not_mem_headerText h
  names := readHeader_headerText h
  firstBreak := rfl
  lastBreak := by simp [lineBreak, Text.dropLastLineBreak]
  unmarked := unmarked_append_lineBreak h.body
  offset := rfl

/-- Cutting a written file. -/
theorem splits_writeFile {entries : List (Segment × List Char)} {names : List String} {start : Nat}
    {text : List Char} (htext : Unmarked text)
    (hentries : ∀ e ∈ entries, e.1.Writable ∧ Unmarked e.2)
    (hnodup : (entries.map (·.1.name)).Nodup) (hnames : ∀ e ∈ entries, e.1.name ∉ names) :
    Splits names start (writeFile text entries) (placed start text entries) := by
  induction entries generalizing names start text with
  | nil => exact .none htext
  | cons e entries ih =>
    obtain ⟨s, after⟩ := e
    obtain ⟨⟨hs, hafter⟩, hrest⟩ := List.forall_mem_cons.mp hentries
    obtain ⟨hname, hnames⟩ := List.forall_mem_cons.mp hnames
    obtain ⟨hfresh, hnodup⟩ := List.nodup_cons.mp hnodup
    refine .segment htext hname (standsIn_through hs start text _) (ih hafter hrest hnodup ?_)
    intro e he hmem
    obtain hmem | hmem := List.mem_cons.mp hmem
    · exact hfresh (List.mem_map.mpr ⟨e, he, hmem⟩)
    · exact hnames e he hmem

/-- What a source is that can be cut into these segments. -/
structure CutFrom (source : List Char) (segments : List Segment) : Prop where
  distinct : (segments.map name).Nodup
  names : ∀ s ∈ segments, Text.isName s.name.toList ∧ ∀ p ∈ s.params, Text.isName p.toList
  body : ∀ s ∈ segments, Unmarked s.body ∧
    ∃ before after, source = before ++ (s.body ++ after) ∧ Text.byteLength before = s.offset
  inOrder : segments.Pairwise fun s t => s.offset + Text.byteLength s.body < t.offset
  opened : ∀ before after, source = before ++ (opening ++ after) →
    ∃ s ∈ segments, ∃ header first last rest,
      s.StandsIn 0 source before header first last rest
  closed : ∀ before after, source = before ++ (closing ++ after) →
    ∃ s ∈ segments, ∃ outside header first last,
      s.StandsIn 0 source outside header first last after

theorem Splits.cutFrom {source : List Char} {segments : List Segment}
    (h : Splits [] 0 source segments) : CutFrom source segments where
  distinct := h.nodup.1
  names s hs := by
    obtain ⟨_, _, _, _, _, hstands⟩ := h.standsIn hs
    obtain ⟨hname, hparams, -⟩ := readHeader_sound hstands.names
    exact ⟨hname, hparams⟩
  body s hs := by
    obtain ⟨before, header, first, last, after, hstands⟩ := h.standsIn hs
    have hbody {word : List Char} (hword : IsMark word) : ¬word <:+: s.body := fun hwithin =>
      hstands.unmarked.not_infix hword (hwithin.trans (List.prefix_append _ _).isInfix)
    refine ⟨⟨hbody (.inl rfl), hbody (.inr rfl)⟩,
      before ++ (opening ++ (header ++ '>' :: first)), last ++ (closing ++ after), ?_, ?_⟩
    · simp [hstands.text, through]
    · rw [hstands.offset, Nat.zero_add]
  inOrder := h.pairwise
  opened before after hsource := by
    obtain ⟨s, hs, _, header, first, last, rest, hstands, ⟨-, rfl⟩ | ⟨hmark, -⟩⟩ :=
      h.occurs (.inl rfl) hsource
    · exact ⟨s, hs, header, first, last, rest, hstands⟩
    · exact absurd hmark (by decide)
  closed before after hsource := by
    obtain ⟨s, hs, outside, header, first, last, _, hstands, ⟨hmark, -⟩ | ⟨-, rfl⟩⟩ :=
      h.occurs (.inr rfl) hsource
    · exact absurd hmark (by decide)
    · exact ⟨s, hs, outside, header, first, last, hstands⟩

end Segment

open Segment in
/-- A file that is written from segments with distinct names is cut into the same segments, each
with the place of its body. In every file that can be cut, the names are distinct, the bodies follow
one another, each where it is said to be, and every mark opens or closes a segment. -/
theorem splitSegments_writeFile :
    (∀ sourceName text (entries : List (Segment × List Char)), Unmarked text →
      (∀ e ∈ entries, e.1.Writable ∧ Unmarked e.2) → (entries.map (·.1.name)).Nodup →
        splitSegments sourceName (writeFile text entries) = .ok (placed 0 text entries)) ∧
      ∀ sourceName source segments, splitSegments sourceName source = .ok segments →
        CutFrom source segments := by
  refine ⟨fun sourceName text entries htext hentries hnodup => ?_, fun _ _ _ h =>
    (splits_of_splitSegments h).cutFrom⟩
  have hsplits : Splits [] 0 (writeFile text entries) (placed 0 text entries) :=
    splits_writeFile htext hentries hnodup fun _ _ => List.not_mem_nil
  unfold splitSegments
  rw [splitFrom_eq_ok_iff.mpr hsplits]

open Segment in
/-- Parts of marks in the texts and in a body, and a segment without parameters. -/
theorem splitSegments_writeFile_two :
    let text := "é <:otx<".toList
    let entries : List (Segment × List Char) :=
      [(⟨"row", ["a", "b"], "<.otx\r\n".toList, 0⟩, "<".toList), (⟨"page", [], [], 0⟩, [])]
    splitSegments "f" (writeFile text entries) = .ok (placed 0 text entries) ∧
      CutFrom (writeFile text entries) (placed 0 text entries) := by
  intro text entries
  have hentries : ∀ e ∈ entries, e.1.Writable ∧ Unmarked e.2 := by
    simp only [entries, List.forall_mem_cons]
    exact ⟨⟨⟨by decide, by decide, by decide⟩, by decide⟩,
      ⟨⟨by decide, by decide, by decide⟩, by decide⟩, nofun⟩
  have hsplit := splitSegments_writeFile.1 "f" text entries (by decide) hentries (by decide)
  exact ⟨hsplit, splitSegments_writeFile.2 "f" _ _ hsplit⟩

end TemplateEngine

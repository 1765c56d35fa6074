import TemplateEngine.Compile.Basic
import TemplateEngine.Proofs.Text.Cut
import TemplateEngine.Segment.Split
import TemplateEngine.Text.Position

/-! What a file looks like that can be cut into segments: where each segment stands in it, and that
every mark belongs to one. -/
namespace TemplateEngine

namespace Segment

/-- The list of the parameters is that of the texts, all of which are names. -/
theorem readParams_eq_ok_iff {texts : List (List Char)} {params : List String} :
    readParams texts = .ok params ↔
      (∀ text ∈ texts, Text.isName text) ∧ texts.map String.ofList = params := by
  induction texts generalizing params with
  | nil => simp [readParams]
  | cons text texts ih =>
    rw [readParams]
    split
    · next htext =>
      cases hrest : readParams texts with
      | error e =>
        have hnot : ¬∀ text ∈ texts, Text.isName text := fun hnames => by
          rw [ih.mpr ⟨hnames, rfl⟩] at hrest
          cases hrest
        simp [Except.map, htext, hnot]
      | ok rest =>
        obtain ⟨hnames, rfl⟩ := ih.mp hrest
        simp only [Except.map, Except.ok.injEq, List.forall_mem_cons, List.map_cons]
        exact ⟨fun h => ⟨⟨htext, hnames⟩, h⟩, fun h => h.2⟩
    · next htext => simp [htext]

/-- A header that can be read is made of names, and so a mark cannot begin in it. -/
theorem readHeader_sound {header : List Char} {name : String} {params : List String}
    (h : readHeader header = .ok (name, params)) :
    Text.isName name.toList ∧ (∀ p ∈ params, Text.isName p.toList) ∧ '<' ∉ header := by
  have hname {cs : List Char} (hcs : Text.isName cs) : '<' ∉ cs := fun hmem =>
    absurd (Text.isNamePart_of_isName hcs hmem) (by decide)
  have hblank : Text.isBlank '<' = false := by decide
  have hparts : '<' ∈ header → '<' ∈ ((Text.splitOnce ':' header).getD (header, [])).1 ∨
      '<' ∈ ((Text.splitOnce ':' header).getD (header, [])).2 := by
    cases hcut : Text.splitOnce ':' header with
    | none => exact .inl
    | some found =>
      rw [Text.splitOnce_eq_some hcut]
      simp
  unfold readHeader at h
  generalize (Text.splitOnce ':' header).getD (header, []) = parts at h hparts
  obtain ⟨nameText, paramsText⟩ := parts
  dsimp only at h hparts
  split at h
  · next hisName =>
    obtain ⟨read, hread, heq⟩ := map_eq_ok h
    obtain ⟨rfl, rfl⟩ := Prod.mk.inj heq
    obtain ⟨hnames, rfl⟩ := readParams_eq_ok_iff.mp hread
    refine ⟨by simpa using hisName, ?_, fun hmem => ?_⟩
    · rintro _ hp
      obtain ⟨text, htext, rfl⟩ := List.mem_map.mp hp
      simpa using hnames text htext
    obtain hmem | hmem := hparts hmem
    · exact hname hisName ((Text.mem_trim hblank).mpr hmem)
    · obtain ⟨piece, hpiece, hmem⟩ := Text.exists_piece (by decide : '<' ≠ ',') hmem
      have hmem := (Text.mem_trim hblank).mpr hmem
      refine hname (hnames (Text.trim piece) ?_) hmem
      exact List.mem_filter.mpr ⟨List.mem_map_of_mem hpiece, by simp [List.ne_nil_of_mem hmem]⟩
  · cases h

@[simp] theorem head?_opening : opening.head? = some '<' := rfl

@[simp] theorem head?_closing : closing.head? = some '<' := rfl

theorem not_mem_tail_opening : '<' ∉ opening.tail := by decide

theorem not_mem_tail_closing : '<' ∉ closing.tail := by decide

@[simp] theorem utf8Size_closer : '>'.utf8Size = 1 := rfl

/-- Neither mark of a segment is in the text. -/
def Unmarked (cs : List Char) : Prop :=
  ¬opening <:+: cs ∧ ¬closing <:+: cs

instance (cs : List Char) : Decidable (Unmarked cs) :=
  inferInstanceAs (Decidable (_ ∧ _))

def IsMark (word : List Char) : Prop :=
  word = opening ∨ word = closing

namespace IsMark

variable {word : List Char}

theorem head? (h : IsMark word) : word.head? = some '<' := by
  obtain rfl | rfl := h <;> rfl

theorem not_mem_tail (h : IsMark word) : '<' ∉ word.tail := by
  obtain rfl | rfl := h <;> decide

theorem length (h : IsMark word) : word.length = 6 := by
  obtain rfl | rfl := h <;> rfl

end IsMark

theorem Unmarked.not_infix {cs word : List Char} (h : Unmarked cs) (hword : IsMark word) :
    ¬word <:+: cs := by
  obtain rfl | rfl := hword
  · exact h.1
  · exact h.2

/-- The text from `before` a segment up to its end. -/
def through (s : Segment) (before header first last : List Char) : List Char :=
  before ++ (opening ++ (header ++ '>' :: (first ++ (s.body ++ (last ++ closing)))))

/-- The segment stands in a text that begins at the byte `start`: it is opened after `before` and
closed before `after`, with a line break on either side of its body at most. -/
structure StandsIn (s : Segment) (start : Nat) (cs before header first last after : List Char) :
    Prop where
  text : cs = s.through before header first last ++ after
  opened : '>' ∉ header
  names : readHeader header = .ok (s.name, s.params)
  firstBreak : Text.dropLineBreak (first ++ (s.body ++ (last ++ (closing ++ after)))) =
    s.body ++ (last ++ (closing ++ after))
  lastBreak : Text.dropLastLineBreak (s.body ++ last) = s.body
  unmarked : Unmarked (s.body ++ last)
  offset : s.offset = start + Text.byteLength (before ++ (opening ++ (header ++ '>' :: first)))

theorem StandsIn.later {s : Segment} {start : Nat}
    {cs before header first last after done : List Char}
    (h : s.StandsIn (start + Text.byteLength done) cs before header first last after) :
    s.StandsIn start (done ++ cs) (done ++ before) header first last after where
  text := by simp [h.text, through]
  opened := h.opened
  names := h.names
  firstBreak := h.firstBreak
  lastBreak := h.lastBreak
  unmarked := h.unmarked
  offset := by
    rw [h.offset]
    simp only [Text.byteLength_append]
    omega

/-- Reading a segment finds the place where it stands. -/
theorem read_eq_ok_iff {names : List String} {start next : Nat} {before rest after : List Char}
    {s : Segment} :
    read names (start + Text.byteLength before) rest = .ok (s, next, after) ↔
      s.name ∉ names ∧ ∃ header first last,
        s.StandsIn start (before ++ (opening ++ rest)) before header first last after ∧
          next = start + Text.byteLength (s.through before header first last) := by
  constructor
  · intro h
    unfold read at h
    split at h
    · cases h
    · next header inside hheader =>
      obtain ⟨rfl, hopened⟩ := Text.splitOnce_eq_some_iff.mp hheader
      dsimp only at h
      split at h
      · cases h
      · next name params hread =>
        split at h
        · cases h
        · next hname =>
          split at h
          · cases h
          · next raw tail hraw =>
            split at h
            · cases h
            · next hopening =>
              cases h
              obtain ⟨htext, hclosing⟩ :=
                (Text.cut_eq_some_iff head?_closing not_mem_tail_closing).mp hraw
              have hopening := (Text.cut_eq_none_iff (by decide)).mp hopening
              obtain ⟨first, hfirst⟩ := Text.exists_dropLineBreak inside
              obtain ⟨last, hlast⟩ := Text.exists_dropLastLineBreak raw
              generalize hbody : Text.dropLastLineBreak raw = body at hlast
              generalize hdrop : Text.dropLineBreak inside = text at hfirst htext
              subst hlast htext hfirst
              simp only [List.append_assoc] at hdrop
              refine ⟨fun hmem => hname (List.contains_iff_mem.mpr hmem), header, first, last,
                ⟨by simp [through], hopened, hread, hdrop, hbody, ⟨hopening, hclosing⟩, ?_⟩, ?_⟩
              all_goals
                simp only [through, Text.byteLength_append, Text.byteLength_cons, List.append_assoc,
                  utf8Size_closer]
                omega
  · rintro ⟨hname, header, first, last, h, rfl⟩
    have hrest : rest =
        header ++ '>' :: (first ++ (s.body ++ (last ++ (closing ++ after)))) := by
      simpa [through] using h.text
    have hraw : Text.cut closing (s.body ++ (last ++ (closing ++ after))) =
        some (s.body ++ last, after) :=
      (Text.cut_eq_some_iff head?_closing not_mem_tail_closing).mpr
        ⟨by simp, h.unmarked.2⟩
    have hopening : Text.cut opening (s.body ++ last) = none :=
      (Text.cut_eq_none_iff (by decide)).mpr h.unmarked.1
    have hfresh : names.contains s.name = false := by simpa using hname
    unfold read
    rw [Text.splitOnce_eq_some_iff.mpr ⟨hrest, h.opened⟩]
    simp only [h.names, hfresh, h.firstBreak, hraw, hopening, h.lastBreak]
    have hoffset : start + Text.byteLength before + Text.byteLength opening +
        Text.byteLength header + 1 + Text.byteLength first = s.offset := by
      simp [h.offset, Nat.add_assoc]
    simp only [Text.byteLength_append, Nat.add_sub_cancel_right, hoffset, through,
      Text.byteLength_cons, utf8Size_closer, Bool.false_eq_true, if_false,
      Except.ok.injEq, Prod.mk.injEq, true_and, and_true]
    omega

/-- The segments of a text that begins at the byte `start`, none of which has one of the names. -/
inductive Splits : List String → Nat → List Char → List Segment → Prop where
  | none {names : List String} {start : Nat} {cs : List Char} :
    Unmarked cs → Splits names start cs []
  | segment {names : List String} {start : Nat} {cs before header first last after : List Char}
    {s : Segment} {segments : List Segment} :
    Unmarked before → s.name ∉ names → s.StandsIn start cs before header first last after →
      Splits (s.name :: names) (start + Text.byteLength (s.through before header first last)) after
        segments →
        Splits names start cs (s :: segments)

/-- No segment is closed before the first one is opened. -/
theorem early_eq_none_iff {before rest : List Char} :
    (Text.cut closing (before ++ (opening ++ rest))).filter (fun c => c.1.length ≤ before.length) =
      none ↔ ¬closing <:+: before := by
  constructor
  · rintro h ⟨pre, post, rfl⟩
    have hoccurs : pre ++ closing ++ post ++ (opening ++ rest) =
        pre ++ (closing ++ (post ++ (opening ++ rest))) := by simp
    cases hcut : Text.cut closing (pre ++ closing ++ post ++ (opening ++ rest)) with
    | none =>
      rw [Text.cut_eq_none_iff (by decide)] at hcut
      exact hcut ⟨pre, _, by rw [hoccurs, List.append_assoc]⟩
    | some found =>
      obtain ⟨early, late⟩ := found
      have hle := Text.first_of_cut hcut hoccurs
      rw [hcut, Option.filter_some] at h
      split at h
      · cases h
      · next hlate =>
        simp only [decide_eq_true_eq, List.length_append] at hlate
        omega
  · intro hnot
    rw [Option.filter_eq_none_iff]
    rintro ⟨early, after⟩ hcut
    have hcs := Text.cut_eq_some hcut
    rw [List.append_assoc] at hcs
    have hseam : ∀ d ∈ (opening ++ rest).head?, d ∉ closing.tail := by
      simpa using not_mem_tail_closing
    obtain ⟨left, rfl, -⟩ | ⟨left, rfl, hleft⟩ := Text.occurs_append hseam hcs
    · exact absurd ⟨early, left, by simp⟩ hnot
    · cases left with
      | nil => cases hleft
      | cons c left => simp

/-- One segment of a file that begins with unmarked text, and then the others. -/
theorem splitFrom_segment {names : List String} {start next : Nat}
    {before rest after : List Char} {s : Segment} (hbefore : Unmarked before)
    (hread : read names (start + Text.byteLength before) rest = .ok (s, next, after)) :
    splitFrom names start (before ++ (opening ++ rest)) =
      (splitFrom (s.name :: names) next after).map (s :: ·) := by
  have hopening : Text.cut opening (before ++ (opening ++ rest)) = some (before, rest) :=
    (Text.cut_eq_some_iff head?_opening not_mem_tail_opening).mpr ⟨rfl, hbefore.1⟩
  rw [splitFrom]
  split
  · next hnone _ =>
    rw [hopening] at hnone
    cases hnone
  · next hnone _ =>
    rw [hopening] at hnone
    cases hnone
  · next hsome =>
    rw [hopening] at hsome
    cases hsome
    rw [early_eq_none_iff.mpr hbefore.2]
    dsimp only
    split
    · next hread' =>
      rw [hread] at hread'
      cases hread'
    · next hread' =>
      rw [hread] at hread'
      cases hread'
      rfl

theorem splitFrom_eq_ok_iff {names : List String} {start : Nat} {cs : List Char}
    {segments : List Segment} :
    splitFrom names start cs = .ok segments ↔ Splits names start cs segments := by
  constructor
  · intro h
    fun_induction splitFrom names start cs generalizing segments with
    | case1 names start cs hopening hclosing =>
      cases h
      exact .none ⟨(Text.cut_eq_none_iff (by decide)).mp hopening,
        (Text.cut_eq_none_iff (by decide)).mp hclosing⟩
    | case5 names start cs before rest hcut s next after hread _ hearly ih =>
      obtain ⟨others, hothers, rfl⟩ := map_eq_ok h
      obtain ⟨rfl, hopening⟩ := (Text.cut_eq_some_iff head?_opening not_mem_tail_opening).mp hcut
      obtain ⟨hname, header, first, last, hstands, rfl⟩ := read_eq_ok_iff.mp hread
      exact .segment ⟨hopening, early_eq_none_iff.mp hearly⟩ hname hstands (ih hothers)
    | _ => cases h
  · intro h
    induction h with
    | none h =>
      have hopening := (Text.cut_eq_none_iff (by decide)).mpr h.1
      have hclosing := (Text.cut_eq_none_iff (by decide)).mpr h.2
      rw [splitFrom]
      split <;> simp_all
    | @segment names start cs before header first last after s segments hbefore hname h hrest ih =>
      obtain ⟨rest, rfl⟩ : ∃ rest, cs = before ++ (opening ++ rest) :=
        ⟨_, by simpa [through] using h.text⟩
      have hread := read_eq_ok_iff.mpr ⟨hname, header, first, last, h, rfl⟩
      rw [splitFrom_segment hbefore hread, ih]
      rfl

/-- A line break or nothing stands between the header and the body, and no mark begins there. -/
theorem StandsIn.not_mem {s : Segment} {start : Nat} {cs before header first last after : List Char}
    (h : s.StandsIn start cs before header first last after) : '<' ∉ header ++ '>' :: first := by
  have hheader := (readHeader_sound h.names).2.2
  have hfirst := Text.mem_of_dropLineBreak h.firstBreak
  simp only [List.mem_cons, List.not_mem_nil, or_false] at hfirst
  obtain rfl | rfl | rfl := hfirst <;> simp [hheader]

/-- A text before a mark, where no other mark occurs. -/
theorem IsMark.occurs {mark word text rest pre post : List Char} (hmark : IsMark mark)
    (hword : IsMark word) (htext : Unmarked text)
    (h : text ++ (mark ++ rest) = pre ++ (word ++ post)) :
    (pre = text ∧ word = mark ∧ post = rest) ∨
      ∃ left, pre = text ++ (mark ++ left) ∧ rest = left ++ (word ++ post) := by
  have hseam : ∀ d ∈ (mark ++ rest).head?, d ∉ word.tail := by
    simpa [List.head?_append, hmark.head?] using hword.not_mem_tail
  obtain ⟨left, rfl, -⟩ | ⟨left, rfl, hleft⟩ := Text.occurs_append hseam h
  · exact absurd ⟨pre, left, by simp⟩ (htext.not_infix hword)
  cases left with
  | nil =>
    rw [List.nil_append] at hleft
    obtain ⟨hsame, hrest⟩ := List.append_inj hleft (hmark.length.trans hword.length.symm)
    exact .inl ⟨List.append_nil _, hsame.symm, hrest.symm⟩
  | cons c left =>
    obtain ⟨tail, htail⟩ := List.head?_eq_some_iff.mp hmark.head?
    have hnot : '<' ∉ tail := by simpa [htail] using hmark.not_mem_tail
    rw [htail] at hleft ⊢
    obtain ⟨rfl, hinside⟩ := List.cons.inj hleft
    obtain ⟨left, rfl, hrest⟩ := Text.occurs_after hword.head? hnot hinside
    exact .inr ⟨left, rfl, hrest⟩

/-- A mark that occurs in a text in which a segment stands is one of the segment, unless it comes
after that. -/
theorem StandsIn.occurs {s : Segment} {start : Nat}
    {cs before header first last after word pre post : List Char}
    (h : s.StandsIn start cs before header first last after) (hbefore : Unmarked before)
    (hword : IsMark word) (hcs : cs = pre ++ (word ++ post)) :
    (word = opening ∧ pre = before) ∨ (word = closing ∧ post = after) ∨ ∃ left,
      pre = s.through before header first last ++ left ∧ after = left ++ (word ++ post) := by
  have htext : before ++ (opening ++ ((header ++ '>' :: first) ++
      ((s.body ++ last) ++ (closing ++ after)))) = pre ++ (word ++ post) := by
    simp [← hcs, h.text, through]
  obtain ⟨rfl, hsame, -⟩ | ⟨left, rfl, hleft⟩ := IsMark.occurs (.inl rfl) hword hbefore htext
  · exact .inl ⟨hsame, rfl⟩
  obtain ⟨left, rfl, hinside⟩ := Text.occurs_after hword.head? h.not_mem hleft
  obtain ⟨-, hsame, rfl⟩ | ⟨left, rfl, hafter⟩ := IsMark.occurs (.inr rfl) hword h.unmarked hinside
  · exact .inr (.inl ⟨hsame, rfl⟩)
  · exact .inr (.inr ⟨left, by simp [through], hafter⟩)

namespace Splits

variable {names : List String} {start : Nat} {cs : List Char} {segments : List Segment}

theorem standsIn (h : Splits names start cs segments) {s : Segment} (hs : s ∈ segments) :
    ∃ before header first last after, s.StandsIn start cs before header first last after := by
  induction h with
  | none => cases hs
  | segment _ _ h _ ih =>
    obtain rfl | hs := List.mem_cons.mp hs
    · exact ⟨_, _, _, _, _, h⟩
    · obtain ⟨before, header, first, last, after, hs⟩ := ih hs
      rw [h.text]
      exact ⟨_, header, first, last, after, hs.later⟩

/-- Every mark opens or closes a segment. -/
theorem occurs (h : Splits names start cs segments) {word pre post : List Char}
    (hword : IsMark word) (hcs : cs = pre ++ (word ++ post)) :
    ∃ s ∈ segments, ∃ before header first last after,
      s.StandsIn start cs before header first last after ∧
        ((word = opening ∧ pre = before) ∨ (word = closing ∧ post = after)) := by
  induction h generalizing pre with
  | none h => exact absurd ⟨pre, post, by simp [hcs]⟩ (h.not_infix hword)
  | @segment _ _ _ before header first last after s _ hbefore _ h _ ih =>
    obtain hopened | hclosed | ⟨left, rfl, hleft⟩ := h.occurs hbefore hword hcs
    · exact ⟨s, List.mem_cons_self, _, _, _, _, _, h, .inl hopened⟩
    · exact ⟨s, List.mem_cons_self, _, _, _, _, _, h, .inr hclosed⟩
    · obtain ⟨t, ht, before', header', first', last', after', hstands, hplace⟩ := ih hleft
      have hlater := hstands.later
      rw [← h.text] at hlater
      refine ⟨t, List.mem_cons_of_mem _ ht, _, _, _, _, _, hlater, hplace.imp_left ?_⟩
      rintro ⟨hopening, rfl⟩
      exact ⟨hopening, rfl⟩

/-- No two segments of a file have the same name. -/
theorem nodup (h : Splits names start cs segments) :
    (segments.map name).Nodup ∧ ∀ s ∈ segments, s.name ∉ names := by
  induction h with
  | none => exact ⟨.nil, List.forall_mem_nil _⟩
  | @segment _ _ _ _ _ _ _ _ s segments _ hname _ _ ih =>
    obtain ⟨hnodup, hfresh⟩ := ih
    have hs : s.name ∉ segments.map name := by
      intro hmem
      obtain ⟨t, ht, heq⟩ := List.mem_map.mp hmem
      exact hfresh t ht (heq ▸ List.mem_cons_self)
    refine ⟨List.nodup_cons.mpr ⟨hs, hnodup⟩, List.forall_mem_cons.mpr ⟨hname, fun t ht hmem => ?_⟩⟩
    exact hfresh t ht (List.mem_cons_of_mem _ hmem)

/-- Each body ends before the next one begins. -/
theorem pairwise (h : Splits names start cs segments) :
    segments.Pairwise fun s t => s.offset + Text.byteLength s.body < t.offset := by
  induction h with
  | none => exact .nil
  | segment _ _ h hrest ih =>
    refine .cons (fun t ht => ?_) ih
    obtain ⟨before, header, first, last, after, hstands⟩ := hrest.standsIn ht
    rw [h.offset, hstands.offset]
    simp only [through, Text.byteLength_append, Text.byteLength_cons, utf8Size_closer]
    omega

end Splits

end Segment

theorem splits_of_splitSegments {sourceName : String} {source : List Char}
    {segments : List Segment} (h : splitSegments sourceName source = .ok segments) :
    Segment.Splits [] 0 source segments := by
  unfold splitSegments at h
  split at h
  · next hfrom =>
    cases h
    exact Segment.splitFrom_eq_ok_iff.mp hfrom
  · cases h

end TemplateEngine

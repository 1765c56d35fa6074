import Mathlib.Data.List.Infix
import TemplateEngine.Text.Name
import TemplateEngine.Text.Split

/-! What is found when a text is cut. A word is cut out where it first occurs, and a word whose
first character is in it only once occurs in two texts that are put together where it occurs in one
of them, or from the seam on. -/
namespace TemplateEngine.Text

section Occurrences

variable {c : Char} {word a b cs before after : List Char}

/-- A word that cannot go on across the seam of two texts occurs in one of them. -/
theorem occurs_append (hseam : ∀ d ∈ b.head?, d ∉ word.tail)
    (h : a ++ b = before ++ (word ++ after)) :
    (∃ left, a = before ++ (word ++ left) ∧ after = left ++ b) ∨
      ∃ left, before = a ++ left ∧ b = left ++ (word ++ after) := by
  obtain ⟨left, hbefore, hb⟩ | ⟨w, ha, hw⟩ := List.append_eq_append_iff.mp h
  · exact .inr ⟨left, hbefore, hb⟩
  obtain ⟨left, hleft, hafter⟩ | ⟨w', hword, hb⟩ := List.append_eq_append_iff.mp hw
  · exact .inl ⟨left, by rw [ha, hleft], hafter⟩
  match w, w' with
  | [], w' => exact .inr ⟨[], by simpa using ha.symm, by simpa [hword] using hb⟩
  | w, [] => exact .inl ⟨[], by simp [ha, hword], by simpa using hb.symm⟩
  | x :: w, d :: w' => exact absurd (by simp [hword]) (hseam d (by simp [hb]))

/-- Where its first character is not, a word does not begin. -/
theorem occurs_after (hfirst : word.head? = some c) (hc : c ∉ a)
    (h : a ++ b = before ++ (word ++ after)) :
    ∃ left, before = a ++ left ∧ b = left ++ (word ++ after) := by
  obtain ⟨v, rfl⟩ := List.head?_eq_some_iff.mp hfirst
  obtain ⟨left, hbefore, hb⟩ | ⟨w, ha, hw⟩ := List.append_eq_append_iff.mp h
  · exact ⟨left, hbefore, hb⟩
  · cases w with
    | nil => exact ⟨[], by simpa using ha.symm, hw.symm⟩
    | cons d w =>
      obtain ⟨rfl, -⟩ := List.cons.inj hw
      exact absurd (by simp [ha]) hc

theorem cutFrom_eq_none_iff (hword : word ≠ []) {seen : List Char} :
    cutFrom word seen cs = none ↔ ¬word <:+: cs := by
  induction cs generalizing seen with
  | nil => simp [cutFrom, hword]
  | cons c cs ih =>
    rw [cutFrom, List.infix_cons_iff]
    cases hprefix : stripPrefix? word (c :: cs) with
    | some after =>
      have : word <+: c :: cs := ⟨after, (stripPrefix?_eq_some_iff.mp hprefix).symm⟩
      simp [this]
    | none =>
      have : ¬word <+: c :: cs := by
        rintro ⟨after, hafter⟩
        rw [stripPrefix?_eq_some_iff.mpr hafter.symm] at hprefix
        cases hprefix
      simp [this, ih]

theorem cut_eq_none_iff (hword : word ≠ []) : cut word cs = none ↔ ¬word <:+: cs :=
  cutFrom_eq_none_iff hword

/-- Nothing that occurs begins before what is cut out. -/
theorem first_of_cutFrom {seen : List Char} (h : cutFrom word seen cs = some (before, after))
    {pre post : List Char} (hcs : cs = pre ++ (word ++ post)) :
    before.length ≤ seen.length + pre.length := by
  induction cs generalizing seen pre with
  | nil =>
    unfold cutFrom at h
    split at h
    · cases h
      simp
    · cases h
  | cons c cs ih =>
    unfold cutFrom at h
    split at h
    · cases h
      simp
    · next hprefix =>
      match pre with
      | [] =>
        rw [List.nil_append] at hcs
        rw [stripPrefix?_eq_some_iff.mpr hcs] at hprefix
        cases hprefix
      | d :: pre =>
        have := ih h (List.cons.inj hcs).2
        simp only [List.length_cons] at this ⊢
        omega

theorem first_of_cut (h : cut word cs = some (before, after)) {pre post : List Char}
    (hcs : cs = pre ++ (word ++ post)) : before.length ≤ pre.length := by
  simpa using first_of_cutFrom h hcs

/-- The text before a word that is cut out is the one before its first occurrence. -/
theorem cut_eq_some_iff (hfirst : word.head? = some c) (hword : c ∉ word.tail) :
    cut word cs = some (before, after) ↔ cs = before ++ (word ++ after) ∧ ¬word <:+: before := by
  have hne : word ≠ [] := by
    rintro rfl
    cases hfirst
  have hpos := List.length_pos_of_ne_nil hne
  have hsound {before after : List Char} (h : cut word cs = some (before, after)) :
      cs = before ++ (word ++ after) ∧ ¬word <:+: before := by
    have hcs := cut_eq_some h
    refine ⟨by simpa using hcs, ?_⟩
    rintro ⟨pre, post, rfl⟩
    have hle : (pre ++ word ++ post).length ≤ pre.length :=
      first_of_cut h (by rw [hcs, List.append_assoc, List.append_assoc, List.append_assoc])
    simp only [List.length_append] at hle
    omega
  refine ⟨hsound, fun ⟨hcs, hnot⟩ => ?_⟩
  cases hcut : cut word cs with
  | none =>
    rw [cut_eq_none_iff hne] at hcut
    exact absurd ⟨before, after, by simpa using hcs.symm⟩ hcut
  | some found =>
    obtain ⟨before', after'⟩ := found
    obtain ⟨hcs', hnot'⟩ := hsound hcut
    have hle := first_of_cut hcut hcs
    rw [hcs] at hcs'
    have hseam : ∀ d ∈ (word ++ after).head?, d ∉ word.tail := by
      simpa [List.head?_append, hfirst] using hword
    obtain ⟨left, rfl, -⟩ | ⟨left, rfl, hrest⟩ := occurs_append hseam hcs'
    · exact absurd ⟨before', left, by simp⟩ hnot
    · simp only [List.length_append] at hle
      obtain rfl : left = [] := List.length_eq_zero_iff.mp (by omega)
      rw [List.nil_append] at hrest
      rw [List.append_cancel_left hrest, List.append_nil]

theorem splitOnce_eq_some_iff {sep : Char} :
    splitOnce sep cs = some (before, after) ↔ cs = before ++ sep :: after ∧ sep ∉ before := by
  have hword : ¬[sep] <:+: before ↔ sep ∉ before := by
    rw [List.singleton_infix_iff]
  have hfirst : [sep].head? = some sep := rfl
  rw [← hword]
  exact cut_eq_some_iff hfirst List.not_mem_nil

end Occurrences

section Pieces

variable {sep : Char}

theorem splitAll_eq_splitOn (cs : List Char) : splitAll sep cs = cs.splitOn sep := by
  have hfrom (piece : List Char) :
      splitAllFrom sep piece cs = cs.splitOnPPrepend (· == sep) piece := by
    induction cs generalizing piece with
    | nil => rfl
    | cons c cs ih => simp [splitAllFrom, List.splitOnPPrepend, ih]
  exact hfrom []

/-- Every character but the separators is in a piece. -/
theorem exists_piece {c : Char} (hc : c ≠ sep) {cs : List Char} (h : c ∈ cs) :
    ∃ piece ∈ splitAll sep cs, c ∈ piece := by
  have hfrom (piece cs : List Char) (h : c ∈ piece ∨ c ∈ cs) :
      ∃ p ∈ splitAllFrom sep piece cs, c ∈ p := by
    induction cs generalizing piece with
    | nil => simpa [splitAllFrom] using h
    | cons d cs ih =>
      rw [splitAllFrom]
      split
      · next hd =>
        obtain h | h := h
        · exact ⟨_, List.mem_cons_self, by simpa using h⟩
        · obtain ⟨p, hp, hmem⟩ := ih [] (.inr ((List.mem_cons.mp h).resolve_left (hd ▸ hc)))
          exact ⟨p, List.mem_cons_of_mem _ hp, hmem⟩
      · apply ih
        rw [List.mem_cons, or_assoc, or_left_comm]
        simpa using h
  exact hfrom [] cs (.inr h)

end Pieces

section Blanks

variable {c : Char} {cs : List Char}

theorem mem_trim (hc : isBlank c = false) : c ∈ trim cs ↔ c ∈ cs := by
  have hdrop (cs : List Char) : c ∈ cs.dropWhile isBlank ↔ c ∈ cs := by
    induction cs with
    | nil => rfl
    | cons d cs ih =>
      rw [List.dropWhile_cons]
      split
      · next hd =>
        have : c ≠ d := by
          rintro rfl
          rw [hc] at hd
          cases hd
        simp [ih, this]
      · rfl
  simp [trim, trimEnd, trimStart, hdrop]

theorem trim_eq_self (h : ∀ c ∈ cs, isBlank c = false) : trim cs = cs := by
  have hdrop {cs : List Char} (h : ∀ c ∈ cs, isBlank c = false) : cs.dropWhile isBlank = cs := by
    cases cs with
    | nil => rfl
    | cons c cs => rw [List.dropWhile_cons, h c List.mem_cons_self]; rfl
  have hreverse : ∀ c ∈ cs.reverse, isBlank c = false := by simpa using h
  rw [trim, trimStart, hdrop h, trimEnd, hdrop hreverse, List.reverse_reverse]

/-- The code points of the blank characters. -/
def blankCodes : List Nat :=
  [0x9, 0xa, 0xb, 0xc, 0xd, 0x20, 0x85, 0xa0, 0x1680, 0x2000, 0x2001, 0x2002, 0x2003, 0x2004,
    0x2005, 0x2006, 0x2007, 0x2008, 0x2009, 0x200a, 0x2028, 0x2029, 0x202f, 0x205f, 0x3000]

theorem mem_blankCodes (h : isBlank c) : c.toNat ∈ blankCodes := by
  simp only [isBlank, Bool.or_eq_true, Bool.and_eq_true, beq_iff_eq, decide_eq_true_eq] at h
  simp only [blankCodes, List.mem_cons, List.not_mem_nil, or_false]
  omega

theorem not_isNamePart_of_isBlank (h : isBlank c) : isNamePart c = false := by
  have hnot : ∀ n ∈ blankCodes, isNamePart (Char.ofNat n) = false := by decide +kernel
  rw [← Char.ofNat_toNat c]
  exact hnot _ (mem_blankCodes h)

theorem isNamePart_of_isNameStart (h : isNameStart c) : isNamePart c := by
  simp only [isNameStart, isNamePart, isAlphanumeric, Bool.or_eq_true] at h ⊢
  exact h.imp_left .inl

theorem isNamePart_of_isName (h : isName cs) (hc : c ∈ cs) : isNamePart c := by
  cases cs with
  | nil => cases hc
  | cons d cs =>
    simp only [isName, Bool.and_eq_true, List.all_eq_true] at h
    obtain ⟨⟨hd, hcs⟩, -⟩ := h
    obtain rfl | hc := List.mem_cons.mp hc
    · exact isNamePart_of_isNameStart hd
    · exact hcs c hc

theorem not_isBlank_of_isName (h : isName cs) (hc : c ∈ cs) : isBlank c = false := by
  have hpart := isNamePart_of_isName h hc
  refine Bool.eq_false_iff.mpr fun hblank => ?_
  rw [not_isNamePart_of_isBlank hblank] at hpart
  cases hpart

theorem trim_of_isName (h : isName cs) : trim cs = cs :=
  trim_eq_self fun _ => not_isBlank_of_isName h

end Blanks

/-! Line breaks. -/

theorem exists_dropLineBreak (cs : List Char) : ∃ first, cs = first ++ dropLineBreak cs := by
  unfold dropLineBreak
  split
  · exact ⟨['\r', '\n'], rfl⟩
  · exact ⟨['\n'], rfl⟩
  · exact ⟨[], rfl⟩

theorem exists_dropLastLineBreak (cs : List Char) : ∃ last, cs = dropLastLineBreak cs ++ last := by
  unfold dropLastLineBreak
  split
  · next rest hcs => exact ⟨['\r', '\n'], by rw [← List.reverse_inj, hcs]; simp⟩
  · next rest hcs => exact ⟨['\n'], by rw [← List.reverse_inj, hcs]; simp⟩
  · exact ⟨[], by simp⟩

/-- What is dropped as a line break is one or nothing. -/
theorem mem_of_dropLineBreak {first cs : List Char} (h : dropLineBreak (first ++ cs) = cs) :
    first ∈ [[], ['\n'], ['\r', '\n']] := by
  unfold dropLineBreak at h
  split at h
  · next rest hall =>
    subst h
    have : first = ['\r', '\n'] := List.append_cancel_right hall
    simp [this]
  · next rest hall =>
    subst h
    have : first = ['\n'] := List.append_cancel_right hall
    simp [this]
  · have : first = [] := List.append_left_eq_self.mp h
    simp [this]

end TemplateEngine.Text

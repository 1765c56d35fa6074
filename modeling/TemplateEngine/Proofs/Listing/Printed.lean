import TemplateEngine.Proofs.Syntax.Spelled
import TemplateEngine.Text.Quoted

/-! The pieces that a listing is made of. Each of them can be told from whatever comes after it, so
that a longer text can be taken apart from the front, and none of them breaks a line. -/
namespace TemplateEngine.Text

/-- All characters are those of names. -/
def NameParts (s : String) : Prop :=
  ∀ c ∈ s.toList, isNamePart c

instance : DecidablePred NameParts :=
  fun _ => decidable_of_iff _ List.all_eq_true

/-- No name goes on here. -/
def Stops (rest : List Char) : Prop :=
  ∀ c ∈ rest.head?, isNamePart c = false

theorem stops_nil : Stops [] :=
  nofun

theorem stops_cons {c : Char} (hc : isNamePart c = false) (rest : List Char) :
    Stops (c :: rest) := by
  rintro d ⟨⟩
  exact hc

/-- On one line, up to a character that is shown there. -/
structure Solid (cs : List Char) : Prop where
  line : '\n' ∉ cs
  last : ∃ c ∈ cs.getLast?, isBlank c = false

theorem line_of_eq_nil_or_solid {cs : List Char} (h : cs = [] ∨ Solid cs) : '\n' ∉ cs := by
  obtain rfl | h := h
  · exact List.not_mem_nil
  · exact h.line

theorem Solid.append {a b : List Char} (ha : '\n' ∉ a) (hb : Solid b) : Solid (a ++ b) where
  line := by simp [ha, hb.line]
  last := by
    obtain ⟨c, hc, hblank⟩ := hb.last
    refine ⟨c, ?_, hblank⟩
    rw [Option.mem_def] at hc ⊢
    rw [List.getLast?_append, hc, Option.some_or]

theorem solid_concat {a : List Char} (ha : '\n' ∉ a) {c : Char} (hc : isBlank c = false) :
    Solid (a ++ [c]) := by
  refine .append ha ⟨?_, c, rfl, hc⟩
  rintro hmem
  rw [List.mem_singleton] at hmem
  subst hmem
  exact absurd hc (by decide)

theorem solid_of_forall {a : List Char} (ha : a ≠ []) (h : ∀ c ∈ a, isBlank c = false) :
    Solid a where
  line hmem := absurd (h _ hmem) (by decide)
  last := ⟨a.getLast ha, List.getLast?_eq_some_getLast ha, h _ (List.getLast_mem ha)⟩

theorem Solid.trimEnd_eq {cs : List Char} (h : Solid cs) : trimEnd cs = cs := by
  obtain ⟨c, hc, hblank⟩ := h.last
  obtain ⟨init, rfl⟩ := List.getLast?_eq_some_iff.mp hc
  rw [trimEnd, List.reverse_append, List.reverse_singleton, List.singleton_append,
    List.dropWhile_cons_of_neg (by simp [hblank]), List.reverse_cons, List.reverse_reverse]

/-! Numbers in base sixteen. -/

theorem hexDigits_of_lt {n : Nat} (h : n < 16) : hexDigits n = [Nat.digitChar n] :=
  Nat.toDigits_of_lt_base h

theorem hexDigits_of_le {n : Nat} (h : 16 ≤ n) :
    hexDigits n = hexDigits (n / 16) ++ [Nat.digitChar (n % 16)] :=
  Nat.toDigits_of_base_le (by decide) h

theorem isNamePart_of_mem_hexDigits {n : Nat} {c : Char} (hc : c ∈ hexDigits n) : isNamePart c := by
  have hdigit : ∀ k : Fin 16, isNamePart (Nat.digitChar k) := by decide
  induction n using Nat.strongRecOn with
  | _ n ih =>
    obtain hlt | hle := Nat.lt_or_ge n 16
    · rw [hexDigits_of_lt hlt, List.mem_singleton] at hc
      exact hc ▸ hdigit ⟨n, hlt⟩
    · rw [hexDigits_of_le hle, List.mem_append, List.mem_singleton] at hc
      obtain hc | rfl := hc
      · exact ih (n / 16) (by omega) hc
      · exact hdigit ⟨n % 16, Nat.mod_lt n (by decide)⟩

theorem hexDigits_inj {m n : Nat} (h : hexDigits m = hexDigits n) : m = n := by
  have hdigit : ∀ j k : Fin 16, Nat.digitChar j = Nat.digitChar k → j = k := by decide
  induction m using Nat.strongRecOn generalizing n with
  | _ m ih =>
    obtain hm | hm := Nat.lt_or_ge m 16
    · obtain hn | hn := Nat.lt_or_ge n 16
      · rw [hexDigits_of_lt hm, hexDigits_of_lt hn] at h
        exact congrArg Fin.val (hdigit ⟨m, hm⟩ ⟨n, hn⟩ (List.cons.inj h).1)
      · rw [hexDigits_of_lt hm, hexDigits_of_le hn] at h
        exact absurd (List.append_eq_singleton_iff.mp h.symm) (by simp [hexDigits])
    · obtain hn | hn := Nat.lt_or_ge n 16
      · rw [hexDigits_of_le hm, hexDigits_of_lt hn] at h
        exact absurd (List.append_eq_singleton_iff.mp h) (by simp [hexDigits])
      · rw [hexDigits_of_le hm, hexDigits_of_le hn] at h
        obtain ⟨hfront, hlast⟩ := List.append_inj' h rfl
        have hquot := ih (m / 16) (by omega) hfront
        have hrem := hdigit ⟨m % 16, Nat.mod_lt m (by decide)⟩ ⟨n % 16, Nat.mod_lt n (by decide)⟩
          (List.cons.inj hlast).1
        have hrem : m % 16 = n % 16 := congrArg Fin.val hrem
        omega

/-! Names and numbers end where no name goes on. -/

theorem takeWhile_append_inj {p : Char → Bool} {a b r s : List Char} (ha : ∀ c ∈ a, p c)
    (hb : ∀ c ∈ b, p c) (hr : ∀ c ∈ r.head?, p c = false) (hs : ∀ c ∈ s.head?, p c = false)
    (h : a ++ r = b ++ s) : a = b ∧ r = s := by
  have hstop {r : List Char} (hr : ∀ c ∈ r.head?, p c = false) : r.takeWhile p = [] := by
    cases r with
    | nil => rfl
    | cons c r => simp [hr c rfl]
  have hab : a = b := by
    have htake := congrArg (List.takeWhile p) h
    rwa [List.takeWhile_append_of_pos ha, List.takeWhile_append_of_pos hb, hstop hr, hstop hs,
      List.append_nil, List.append_nil] at htake
  subst hab
  exact ⟨rfl, List.append_cancel_left h⟩

section Names

variable {r s : List Char} (hr : Stops r) (hs : Stops s)
include hr hs

theorem name_append_inj {a b : String} (ha : NameParts a) (hb : NameParts b)
    (h : a.toList ++ r = b.toList ++ s) : a = b ∧ r = s := by
  obtain ⟨hab, hrs⟩ := takeWhile_append_inj ha hb hr hs h
  exact ⟨String.toList_inj.mp hab, hrs⟩

theorem digits_append_inj {a b : List Char} (ha : ∀ c ∈ a, c.isDigit) (hb : ∀ c ∈ b, c.isDigit)
    (h : a ++ r = b ++ s) : a = b ∧ r = s :=
  takeWhile_append_inj (fun c hc => Expr.isNamePart_of_isDigit (ha c hc))
    (fun c hc => Expr.isNamePart_of_isDigit (hb c hc)) hr hs h

theorem natText_append_inj {m n : Nat}
    (h : (toString m).toList ++ r = (toString n).toList ++ s) : m = n ∧ r = s := by
  have hdigits (n : Nat) : (toString n).toList = Nat.toDigits 10 n := Nat.toList_repr
  have hdigit (n : Nat) (c : Char) (hc : c ∈ Nat.toDigits 10 n) : c.isDigit :=
    Nat.isDigit_of_mem_toDigits (by decide) (by decide) hc
  rw [hdigits, hdigits] at h
  obtain ⟨hmn, hrs⟩ := digits_append_inj hr hs (hdigit m) (hdigit n) h
  refine ⟨?_, hrs⟩
  calc m = Nat.ofDigitChars 10 (Nat.toDigits 10 m) 0 := Nat.ofDigitChars_ten_toDigits.symm
    _ = Nat.ofDigitChars 10 (Nat.toDigits 10 n) 0 := by rw [hmn]
    _ = n := Nat.ofDigitChars_ten_toDigits

theorem decimal_append_inj {m n : Nat} (h : Decimal.digits m ++ r = Decimal.digits n ++ s) :
    m = n ∧ r = s := by
  have hdigit (n : Nat) : ∀ c ∈ Decimal.digits n, c.isDigit :=
    List.all_eq_true.mp (Decimal.all_isDigit_digits n)
  obtain ⟨hmn, hrs⟩ := digits_append_inj hr hs (hdigit m) (hdigit n) h
  have hvalue := congrArg Decimal.value hmn
  rw [Decimal.value_digits, Decimal.value_digits] at hvalue
  exact ⟨hvalue, hrs⟩

omit hr hs in
theorem minus_ne_digits (n : Nat) (rest rest' : List Char) :
    '-' :: rest ≠ Decimal.digits n ++ rest' := by
  intro h
  obtain ⟨d, ds, hds⟩ := List.exists_cons_of_ne_nil (Decimal.digits_ne_nil n)
  have hd : d.isDigit := List.all_eq_true.mp (Decimal.all_isDigit_digits n) d (by simp [hds])
  rw [hds, List.cons_append] at h
  rw [← (List.cons.inj h).1] at hd
  cases hd

theorem ofInt_append_inj {i j : Int} (h : Decimal.ofInt i ++ r = Decimal.ofInt j ++ s) :
    i = j ∧ r = s := by
  unfold Decimal.ofInt at h
  split at h
  · split at h
    · obtain ⟨hij, hrs⟩ := decimal_append_inj hr hs (List.cons.inj h).2
      exact ⟨by omega, hrs⟩
    · exact absurd h (minus_ne_digits _ _ _)
  · split at h
    · exact absurd h.symm (minus_ne_digits _ _ _)
    · obtain ⟨hij, hrs⟩ := decimal_append_inj hr hs h
      exact ⟨by omega, hrs⟩

theorem intText_append_inj {m n : Int64} (h : (intText m).toList ++ r = (intText n).toList ++ s) :
    m = n ∧ r = s := by
  rw [intText, intText, String.toList_ofList, String.toList_ofList] at h
  obtain ⟨hmn, hrs⟩ := ofInt_append_inj hr hs h
  exact ⟨Int64.toInt_inj.mp hmn, hrs⟩

theorem hexDigits_append_inj {m n : Nat} (h : hexDigits m ++ r = hexDigits n ++ s) :
    m = n ∧ r = s := by
  obtain ⟨hmn, hrs⟩ := takeWhile_append_inj (fun _ => isNamePart_of_mem_hexDigits)
    (fun _ => isNamePart_of_mem_hexDigits) hr hs h
  exact ⟨hexDigits_inj hmn, hrs⟩

end Names

theorem NameParts.not_isBlank {a : String} (h : NameParts a) :
    ∀ c ∈ a.toList, isBlank c = false := by
  intro c hc
  refine Bool.eq_false_iff.mpr fun hblank => ?_
  have hpart := h c hc
  rw [not_isNamePart_of_isBlank hblank] at hpart
  cases hpart

/-- No text with a name in front begins with a character that is not one of names. -/
theorem NameParts.append_ne {a : String} (h : NameParts a) {c : Char} (hc : isNamePart c = false)
    {r : List Char} (hr : a.toList = [] → r.head? ≠ some c) (s : List Char) :
    a.toList ++ r ≠ c :: s := by
  intro heq
  cases ha : a.toList with
  | nil =>
    refine hr ha ?_
    rw [ha, List.nil_append] at heq
    rw [heq, List.head?_cons]
  | cons d rest =>
    rw [ha, List.cons_append] at heq
    have hd := h d (by simp [ha])
    rw [(List.cons.inj heq).1, hc] at hd
    cases hd

theorem NameParts.line {a : String} (h : NameParts a) : '\n' ∉ a.toList :=
  fun hmem => absurd (h _ hmem) (by decide)

theorem line_natText (n : Nat) : '\n' ∉ (toString n).toList := by
  intro hmem
  rw [show (toString n).toList = Nat.toDigits 10 n from Nat.toList_repr] at hmem
  exact absurd (Nat.isDigit_of_mem_toDigits (by decide) (by decide) hmem) (by decide)

theorem line_intText (n : Int64) : '\n' ∉ (intText n).toList := by
  have hdigits (n : Nat) : '\n' ∉ Decimal.digits n := fun hmem =>
    absurd (List.all_eq_true.mp (Decimal.all_isDigit_digits n) _ hmem) (by decide)
  rw [intText, String.toList_ofList, Decimal.ofInt]
  split <;> simp [hdigits]

theorem intText_ne_quote (n : Int64) (a : String) (r s : List Char) :
    (intText n).toList ++ r ≠ (quote a).toList ++ s := by
  rw [intText, quote, String.toList_ofList, String.toList_ofList, Decimal.ofInt, quoteChars]
  split
  · simp
  · obtain ⟨d, ds, hds⟩ := List.exists_cons_of_ne_nil (Decimal.digits_ne_nil n.toInt.natAbs)
    have hd : d.isDigit := List.all_eq_true.mp (Decimal.all_isDigit_digits n.toInt.natAbs) d
      (by simp [hds])
    rw [hds, List.cons_append, List.cons_append]
    rintro h
    rw [(List.cons.inj h).1] at hd
    cases hd

/-! Quoted text. -/

/-- The characters with a mark of their own behind the backslash. -/
def shortEscapes : List (Char × Char) :=
  [('\x22', '\x22'), ('\\', '\\'), ('\t', 't'), ('\r', 'r'), ('\n', 'n'), ('\x00', '0')]

theorem escapeChar_cases (c : Char) :
    (c ∉ ['\x22', '\\', '\n'] ∧ escapeChar c = [c]) ∨
      (∃ mark, (c, mark) ∈ shortEscapes ∧ escapeChar c = ['\\', mark]) ∨
      escapeChar c = '\\' :: 'u' :: '\x7b' :: (hexDigits c.toNat ++ ['\x7d']) := by
  by_cases hshort : ∃ mark, (c, mark) ∈ shortEscapes
  · obtain ⟨mark, hmark⟩ := hshort
    refine .inr (.inl ⟨mark, hmark, ?_⟩)
    simp only [shortEscapes, List.mem_cons, Prod.mk.injEq, List.not_mem_nil, or_false] at hmark
    obtain ⟨rfl, rfl⟩ | ⟨rfl, rfl⟩ | ⟨rfl, rfl⟩ | ⟨rfl, rfl⟩ | ⟨rfl, rfl⟩ | ⟨rfl, rfl⟩ := hmark
    all_goals rfl
  · have hother : ∀ d ∈ shortEscapes.map Prod.fst, c ≠ d := by
      rintro d hd rfl
      obtain ⟨⟨_, mark⟩, hmark, rfl⟩ := List.mem_map.mp hd
      exact hshort ⟨mark, hmark⟩
    simp only [shortEscapes, List.map_cons, List.map_nil, List.forall_mem_cons, List.not_mem_nil,
      false_implies, implies_true, and_true] at hother
    obtain ⟨hquote, hslash, htab, hreturn, hline, hzero⟩ := hother
    unfold escapeChar
    rw [if_neg hquote, if_neg hslash, if_neg htab, if_neg hreturn, if_neg hline, if_neg hzero]
    split
    · exact .inr (.inr (by simp))
    · exact .inl ⟨by simp [hquote, hslash, hline], rfl⟩

theorem escapeChar_append_inj {c d : Char} {r s : List Char}
    (h : escapeChar c ++ r = escapeChar d ++ s) : c = d ∧ r = s := by
  have hmarks : ∀ p ∈ shortEscapes, p.2 ≠ 'u' ∧ ∀ q ∈ shortEscapes, p.2 = q.2 → p.1 = q.1 := by
    decide
  obtain ⟨hc, hcs⟩ | ⟨mark, hmark, hcs⟩ | hcs := escapeChar_cases c
  all_goals
    obtain ⟨hd, hds⟩ | ⟨mark', hmark', hds⟩ | hds := escapeChar_cases d
    all_goals
      rw [hcs, hds] at h
      simp only [List.cons_append, List.nil_append, List.append_assoc, List.cons.injEq] at h
  · exact h
  · simp [h.1] at hc
  · simp [h.1] at hc
  · simp [← h.1] at hd
  · exact ⟨(hmarks _ hmark).2 _ hmark' h.2.1, h.2.2⟩
  · exact absurd h.2.1 (hmarks _ hmark).1
  · simp [← h.1] at hd
  · exact absurd h.2.1.symm (hmarks _ hmark').1
  · have hstops := stops_cons (c := '\x7d') (by decide)
    obtain ⟨hcode, hrest⟩ := hexDigits_append_inj (hstops r) (hstops s) h.2.2.2
    exact ⟨Char.toNat_inj.mp hcode, (List.cons.inj hrest).2⟩

/-- No character ends the text in quotes. -/
theorem escapeChar_ne_quote (c : Char) (r s : List Char) : escapeChar c ++ r ≠ '\x22' :: s := by
  intro h
  obtain ⟨hc, hcs⟩ | ⟨mark, hmark, hcs⟩ | hcs := escapeChar_cases c
  all_goals
    rw [hcs] at h
    simp only [List.cons_append, List.nil_append, List.cons.injEq] at h
  · simp [h.1] at hc
  · exact absurd h.1 (by decide)
  · exact absurd h.1 (by decide)

theorem line_escapeChar (c : Char) : '\n' ∉ escapeChar c := by
  obtain ⟨hc, hcs⟩ | ⟨mark, hmark, hcs⟩ | hcs := escapeChar_cases c
  · rw [hcs]
    rintro hmem
    rw [← List.mem_singleton.mp hmem] at hc
    exact hc (by simp)
  · have hmarks : ∀ p ∈ shortEscapes, p.2 ≠ '\n' := by decide
    rw [hcs]
    simpa using (hmarks _ hmark).symm
  · have hhex : '\n' ∉ hexDigits c.toNat := fun hmem =>
      absurd (isNamePart_of_mem_hexDigits hmem) (by decide)
    rw [hcs]
    simpa using hhex

theorem quoteChars_append_inj {cs ds r s : List Char}
    (h : quoteChars cs ++ r = quoteChars ds ++ s) : cs = ds ∧ r = s := by
  simp only [quoteChars, List.cons_append, List.append_assoc, List.cons.injEq, true_and,
    List.nil_append] at h
  induction cs generalizing ds with
  | nil =>
    cases ds with
    | nil => exact ⟨rfl, (List.cons.inj h).2⟩
    | cons d ds => exact absurd h.symm (by
        rw [List.flatMap_cons, List.append_assoc]
        exact escapeChar_ne_quote d _ _)
  | cons c cs ih =>
    rw [List.flatMap_cons, List.append_assoc] at h
    cases ds with
    | nil => exact absurd h (escapeChar_ne_quote c _ _)
    | cons d ds =>
      rw [List.flatMap_cons, List.append_assoc] at h
      obtain ⟨rfl, hrest⟩ := escapeChar_append_inj h
      obtain ⟨rfl, hrs⟩ := ih hrest
      exact ⟨rfl, hrs⟩

theorem quote_append_inj {a b : String} {r s : List Char}
    (h : (quote a).toList ++ r = (quote b).toList ++ s) : a = b ∧ r = s := by
  rw [quote, quote, String.toList_ofList, String.toList_ofList] at h
  obtain ⟨hab, hrs⟩ := quoteChars_append_inj h
  exact ⟨String.toList_inj.mp hab, hrs⟩

theorem solid_quote (s : String) : Solid (quote s).toList := by
  rw [quote, String.toList_ofList, quoteChars, ← List.cons_append]
  refine solid_concat ?_ (by decide)
  simp only [List.mem_cons, List.mem_flatMap, not_or, not_exists, not_and]
  exact ⟨by decide, fun c _ => line_escapeChar c⟩

/-! Texts between commas, up to a character that closes them. -/

def commas (texts : List (List Char)) : List Char :=
  [',', ' '].intercalate texts

theorem toList_commas {α : Type} (f : α → String) (as : List α) :
    (", ".intercalate (as.map f)).toList = commas (as.map fun a => (f a).toList) := by
  rw [String.toList_intercalate, List.map_map]
  rfl

theorem commas_cons (text : List Char) (texts : List (List Char)) :
    commas (text :: texts) = text ++ texts.flatMap ([',', ' '] ++ ·) := by
  induction texts generalizing text with
  | nil => simp [commas]
  | cons next texts ih =>
    rw [List.flatMap_cons, List.append_assoc, ← ih next, commas, List.intercalate_cons_cons,
      List.append_assoc]
    rfl

theorem line_commas {texts : List (List Char)} (h : ∀ text ∈ texts, '\n' ∉ text) :
    '\n' ∉ commas texts := by
  cases texts with
  | nil => simp [commas]
  | cons text texts =>
    obtain ⟨htext, htexts⟩ := List.forall_mem_cons.mp h
    rw [commas_cons]
    simp only [List.mem_append, List.mem_flatMap, not_or, not_exists, not_and]
    exact ⟨htext, fun next hnext => ⟨by decide, htexts next hnext⟩⟩

section Commas

variable {α : Type} {f g : α → List Char} (ends : List Char → Prop) {close : Char}
  (hcomma : ∀ rest, ends (',' :: rest)) (hclose : ∀ rest, ends (close :: rest))

include hcomma hclose

theorem ends_commas (texts : List (List Char)) (r : List Char) :
    ends (texts.flatMap ([',', ' '] ++ ·) ++ close :: r) := by
  cases texts with
  | nil => exact hclose r
  | cons text texts => exact hcomma _

variable (hne : close ≠ ',')
include hne

theorem commasTail_append_inj {as bs : List α}
    (hinj : ∀ a ∈ as, ∀ b ∈ bs, ∀ r s, ends r → ends s → f a ++ r = g b ++ s → a = b ∧ r = s)
    {r s : List Char} (h : (as.map f).flatMap ([',', ' '] ++ ·) ++ close :: r =
      (bs.map g).flatMap ([',', ' '] ++ ·) ++ close :: s) : as = bs ∧ r = s := by
  induction as generalizing bs with
  | nil =>
    cases bs with
    | nil => exact ⟨rfl, (List.cons.inj h).2⟩
    | cons b bs => exact absurd (List.cons.inj h).1 hne
  | cons a as ih =>
    cases bs with
    | nil => exact absurd (List.cons.inj h).1.symm hne
    | cons b bs =>
      simp only [List.map_cons, List.flatMap_cons, List.append_assoc] at h
      obtain ⟨rfl, hrest⟩ := hinj a List.mem_cons_self b List.mem_cons_self _ _
        (ends_commas ends hcomma hclose _ r) (ends_commas ends hcomma hclose _ s)
        (List.append_cancel_left h)
      obtain ⟨rfl, hrs⟩ := ih (fun a ha b hb => hinj a (List.mem_cons_of_mem _ ha) b
        (List.mem_cons_of_mem _ hb)) hrest
      exact ⟨rfl, hrs⟩

/-- Nothing between the commas begins with the character that closes them. -/
theorem commas_append_inj {as bs : List α}
    (hf : ∀ a ∈ as, ∀ r s, f a ++ r ≠ close :: s) (hg : ∀ b ∈ bs, ∀ r s, g b ++ r ≠ close :: s)
    (hinj : ∀ a ∈ as, ∀ b ∈ bs, ∀ r s, ends r → ends s → f a ++ r = g b ++ s → a = b ∧ r = s)
    {r s : List Char}
    (h : commas (as.map f) ++ close :: r = commas (bs.map g) ++ close :: s) :
    as = bs ∧ r = s := by
  cases as with
  | nil =>
    cases bs with
    | nil => exact ⟨rfl, (List.cons.inj h).2⟩
    | cons b bs =>
      rw [List.map_cons, commas_cons, List.append_assoc] at h
      exact absurd h.symm (hg b List.mem_cons_self _ _)
  | cons a as =>
    rw [List.map_cons, commas_cons, List.append_assoc] at h
    cases bs with
    | nil => exact absurd h (hf a List.mem_cons_self _ _)
    | cons b bs =>
      rw [List.map_cons, commas_cons, List.append_assoc] at h
      obtain ⟨rfl, hrest⟩ := hinj a List.mem_cons_self b List.mem_cons_self _ _
        (ends_commas ends hcomma hclose _ r) (ends_commas ends hcomma hclose _ s) h
      obtain ⟨rfl, hrs⟩ := commasTail_append_inj ends hcomma hclose hne
        (fun a ha b hb => hinj a (List.mem_cons_of_mem _ ha) b (List.mem_cons_of_mem _ hb)) hrest
      exact ⟨rfl, hrs⟩

end Commas

end TemplateEngine.Text

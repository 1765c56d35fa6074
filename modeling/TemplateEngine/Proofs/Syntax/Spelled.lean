import TemplateEngine.Proofs.Syntax.Blanks

/-! Tokens that are written out. Where what follows does not run on from a token, the token is read
from its text, and the reading goes on behind it. -/
namespace TemplateEngine.Expr

section Stop

variable {p : Char → Bool} {cs rest : List Char} (hcs : ∀ c ∈ cs, p c)
  (hrest : ∀ c ∈ rest.head?, p c = false)
include hcs hrest

theorem takeWhile_append_stop : (cs ++ rest).takeWhile p = cs := by
  rw [List.takeWhile_append_of_pos hcs]
  cases rest with
  | nil => simp
  | cons c rest => simp [hrest c rfl]

theorem dropWhile_append_stop : (cs ++ rest).dropWhile p = rest := by
  rw [List.dropWhile_append_of_pos hcs]
  cases rest with
  | nil => simp
  | cons c rest => simp [hrest c rfl]

end Stop

/-- A whole number. No fraction follows it. -/
theorem readNumber_whole {whole rest : List Char} (hwhole : ∀ d ∈ whole, d.isDigit)
    (hrest : ∀ d ∈ rest.head?, d.isDigit = false)
    (hpoint : ∀ d tail, rest = '.' :: d :: tail → d.isDigit = false) :
    readNumber (whole ++ rest) = (readNumber.integer whole, rest) := by
  have htake : (whole ++ rest).takeWhile (·.isDigit) = whole := takeWhile_append_stop hwhole hrest
  have hdrop : (whole ++ rest).dropWhile (·.isDigit) = rest := dropWhile_append_stop hwhole hrest
  unfold readNumber
  dsimp only
  rw [htake, hdrop]
  split
  · next d tail => rw [if_neg (by simp [hpoint d tail rfl])]
  · rfl

/-- A text that does not run on from a token before it. -/
structure Breaks (rest : List Char) : Prop where
  name : ∀ c ∈ rest.head?, Text.isNamePart c = false
  equal : ∀ c ∈ rest.head?, c ≠ '='
  fraction : ∀ d tail, rest = '.' :: d :: tail → d.isDigit = false

theorem breaks_nil : Breaks [] :=
  ⟨nofun, nofun, nofun⟩

theorem breaks_cons {c : Char} (hc : Text.isNamePart c = false) (hequal : c ≠ '=')
    (hpoint : c ≠ '.') (rest : List Char) : Breaks (c :: rest) where
  name d hd := by
    cases hd
    exact hc
  equal d hd := by
    cases hd
    exact hequal
  fraction d tail h := absurd (List.cons.inj h).1 hpoint

/-- A name as it can be written, reserved or not. -/
def IsWord (s : String) : Prop :=
  ∃ c rest, s.toList = c :: rest ∧ Text.isNameStart c ∧ ∀ d ∈ rest, Text.isNamePart d

/-- What holds of the ten digits holds of every digit. -/
theorem of_isDigit {p : Char → Bool} (hp : ∀ k < 10, p (Char.ofNat (0x30 + k))) {c : Char}
    (h : c.isDigit) : p c := by
  rw [Char.isDigit, Bool.and_eq_true, decide_eq_true_iff, decide_eq_true_iff, ge_iff_le,
    UInt32.le_iff_toNat_le, UInt32.le_iff_toNat_le] at h
  have hc : c.toNat = 0x30 + (c.toNat - 0x30) := (Nat.add_sub_cancel' h.1).symm
  rw [← Char.ofNat_toNat c, hc]
  exact hp _ (Nat.sub_lt_left_of_lt_add h.1 (Nat.lt_succ_of_le h.2))

theorem isNamePart_of_isDigit {c : Char} : c.isDigit → Text.isNamePart c :=
  of_isDigit (by decide)

theorem not_isDigit_of_isNameStart {c : Char} (h : Text.isNameStart c) : c.isDigit = false := by
  refine Bool.eq_false_iff.mpr fun hdigit => ?_
  have hstart : !Text.isNameStart c :=
    of_isDigit (p := fun c => !Text.isNameStart c) (by decide) hdigit
  rw [h] at hstart
  cases hstart

theorem not_isBlank_of_isNamePart {c : Char} (h : Text.isNamePart c) : ¬Text.isBlank c := by
  intro hblank
  rw [Text.not_isNamePart_of_isBlank hblank] at h
  cases h

theorem tokens_nil : tokens [] = .ok [] := by
  rw [tokens_eq]
  rfl

section Tokens

variable {rest : List Char} (hrest : Breaks rest)
include hrest

theorem tokens_word {s : String} (hs : IsWord s) :
    tokens (s.toList ++ rest) = (tokens rest).map (.name s :: ·) := by
  obtain ⟨c, cs, hcs, hc, hall⟩ := hs
  have hread : readToken c (cs ++ rest) = .ok (.name s, rest) := by
    rw [readToken, if_neg (by simp [not_isDigit_of_isNameStart hc]), if_pos hc,
      takeWhile_append_stop hall hrest.name, dropWhile_append_stop hall hrest.name, ← hcs,
      String.ofList_toList]
  rw [hcs, List.cons_append,
    tokens_of_not_isBlank (not_isBlank_of_isNamePart (Text.isNamePart_of_isNameStart hc)), hread]
  rfl

theorem tokens_digits (n : Nat) :
    tokens (Decimal.digits n ++ rest) =
      match Decimal.toInt64? n with
      | some m => (tokens rest).map (.int m :: ·)
      | none => .error (.invalidNumber (String.ofList (Decimal.digits n))) := by
  have hdigits : ∀ d ∈ Decimal.digits n, d.isDigit :=
    List.all_eq_true.mp (Decimal.all_isDigit_digits n)
  have hstop : ∀ d ∈ rest.head?, d.isDigit = false := by
    intro d hd
    refine Bool.eq_false_iff.mpr fun hdigit => ?_
    have hpart := isNamePart_of_isDigit hdigit
    rw [hrest.name d hd] at hpart
    cases hpart
  have hread := readNumber_whole hdigits hstop hrest.fraction
  rw [readNumber.integer, Decimal.readInt64?_digits] at hread
  obtain ⟨c, cs, hcs⟩ := List.exists_cons_of_ne_nil (Decimal.digits_ne_nil n)
  have hc : c.isDigit := hdigits c (by simp [hcs])
  have hblank := not_isBlank_of_isNamePart (isNamePart_of_isDigit hc)
  rw [hcs, List.cons_append] at hread ⊢
  rw [tokens_of_not_isBlank hblank, readToken, if_pos hc, hread]
  cases Decimal.toInt64? n <;> rfl

end Tokens

/-- Only an equals sign could complete punctuation. -/
theorem Punct.read?_symbol (p : Punct) {rest : List Char} (hrest : ∀ c ∈ rest.head?, c ≠ '=') :
    read? (p.symbol.toList ++ rest) = some (p, rest) := by
  cases rest with
  | nil => cases p <;> rfl
  | cons c rest =>
    have hc : c ≠ '=' := hrest c rfl
    cases p <;> simp [read?, symbol, hc]

theorem tokens_symbol (p : Punct) {rest : List Char} (hrest : ∀ c ∈ rest.head?, c ≠ '=') :
    tokens (p.symbol.toList ++ rest) = (tokens rest).map (.punct p :: ·) := by
  have hfirsts : Punct.firsts.all fun c => !Text.isBlank c && !c.isDigit && !Text.isNameStart c &&
      !decide (c = '\x22' ∨ c = '\x27') := by decide
  have hread := p.read?_symbol hrest
  obtain ⟨c, cs, hcs, hc⟩ : ∃ c cs, p.symbol.toList = c :: cs ∧ c ∈ Punct.firsts := by
    cases p <;> exact ⟨_, _, rfl, by decide⟩
  have hfirst := List.all_eq_true.mp hfirsts c hc
  simp only [Bool.and_eq_true, Bool.not_eq_true', decide_eq_false_iff_not] at hfirst
  obtain ⟨⟨⟨hblank, hdigit⟩, hname⟩, hquote⟩ := hfirst
  rw [← Bool.not_eq_true] at hblank hdigit hname
  rw [hcs, List.cons_append] at hread ⊢
  rw [tokens_of_not_isBlank hblank, readToken, if_neg hdigit, if_neg hname, if_neg hquote, hread]
  rfl

/-- The tokens of a whole number. -/
def intTokens (n : Int64) : List Token :=
  if n.toInt < 0 then [.punct .minus, .int (-n)] else [.int n]

theorem toInt_neg_of_ne {n : Int64} (h : n ≠ Int64.minValue) : (-n).toInt = -n.toInt := by
  have hne : n.toInt ≠ Int64.minValue.toInt := mt Int64.toInt_inj.mp h
  have hle := n.minValue_le_toInt
  have hlt := n.toInt_lt
  rw [Int64.toInt_minValue] at hne hle
  rw [Int64.toInt_neg]
  exact Int.bmod_eq_of_le (by omega) (by omega)

theorem toList_intText (n : Int64) : (intText n).toList =
    if n.toInt < 0 then Punct.minus.symbol.toList ++ Decimal.digits n.toInt.natAbs
      else Decimal.digits n.toInt.natAbs := by
  rw [intText, String.toList_ofList]
  rfl

theorem digits_ne_equal (n : Nat) (rest : List Char) :
    ∀ c ∈ (Decimal.digits n ++ rest).head?, c ≠ '=' := by
  obtain ⟨d, ds, hds⟩ := List.exists_cons_of_ne_nil (Decimal.digits_ne_nil n)
  have hd : d.isDigit := List.all_eq_true.mp (Decimal.all_isDigit_digits n) d (by simp [hds])
  rintro c hc rfl
  rw [hds, List.cons_append, List.head?_cons] at hc
  cases hc
  cases hd

theorem intText_ne_equal (n : Int64) (rest : List Char) :
    ∀ c ∈ ((intText n).toList ++ rest).head?, c ≠ '=' := by
  rw [toList_intText]
  split
  · rintro c hc rfl
    cases hc
  · exact digits_ne_equal _ rest

section Integers

variable {rest : List Char} (hrest : Breaks rest)
include hrest

theorem tokens_intText {n : Int64} (hn : n ≠ Int64.minValue) :
    tokens ((intText n).toList ++ rest) = (tokens rest).map (intTokens n ++ ·) := by
  rw [toList_intText, intTokens]
  split
  · next hneg =>
    have hread : Decimal.toInt64? n.toInt.natAbs = some (-n) := by
      rw [Decimal.toInt64?_eq_some_iff, toInt_neg_of_ne hn]
      omega
    rw [List.append_assoc, tokens_symbol _ (digits_ne_equal _ _), tokens_digits hrest, hread]
    cases tokens rest <;> rfl
  · next hneg =>
    have hread : Decimal.toInt64? n.toInt.natAbs = some n := by
      rw [Decimal.toInt64?_eq_some_iff]
      omega
    rw [tokens_digits hrest, hread]
    rfl

/-- The least number is read as a sign and a number, which does not fit. -/
theorem tokens_intText_least : tokens ((intText Int64.minValue).toList ++ rest) =
    .error (.invalidNumber "9223372036854775808") := by
  have htext : (intText Int64.minValue).toList =
      Punct.minus.symbol.toList ++ Decimal.digits 9223372036854775808 := by rw [toList_intText]; rfl
  have hdigits : String.ofList (Decimal.digits 9223372036854775808) = "9223372036854775808" := by
    decide +kernel
  rw [htext, List.append_assoc, tokens_symbol _ (digits_ne_equal _ _), tokens_digits hrest,
    hdigits]
  rfl

end Integers

end TemplateEngine.Expr

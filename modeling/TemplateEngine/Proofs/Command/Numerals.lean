import TemplateEngine.Decimal.Reading
import TemplateEngine.Proofs.Syntax.Spelled

/-! The grammar of written numbers, whole ones and others, and that their readers accept exactly the
texts of it. -/
namespace TemplateEngine.Decimal

/-- At least one digit, and nothing else. -/
def IsDigits (ds : List Char) : Prop :=
  ds ≠ [] ∧ ∀ d ∈ ds, d.isDigit

/-- Digits after at most one sign, and the number that they are. -/
inductive IntegerText : List Char → Int → Prop where
  | unsigned {ds : List Char} : IsDigits ds → IntegerText ds (value ds)
  | plus {ds : List Char} : IsDigits ds → IntegerText ('+' :: ds) (value ds)
  | minus {ds : List Char} : IsDigits ds → IntegerText ('-' :: ds) (-(value ds : Int))

/-- Digits with at most one point, which may stand before or after all of them. -/
inductive MantissaText : List Char → Prop where
  | whole {ds : List Char} : IsDigits ds → MantissaText ds
  | point {whole fraction : List Char} : (∀ d ∈ whole, d.isDigit) → (∀ d ∈ fraction, d.isDigit) →
    whole ++ fraction ≠ [] → MantissaText (whole ++ '.' :: fraction)

/-- A power of ten, or nothing. -/
inductive ExponentText : List Char → Prop where
  | nothing : ExponentText []
  | power {e : Char} {cs : List Char} {i : Int} : e = 'e' ∨ e = 'E' → IntegerText cs i →
    ExponentText (e :: cs)

/-- What is no finite number is written as a word, in capital letters or small ones. -/
inductive MagnitudeText : List Char → Prop where
  | word {cs : List Char} : String.ofList (cs.map Char.toLower) ∈ ["inf", "infinity", "nan"] →
    MagnitudeText cs
  | finite {mantissa exponent : List Char} : MantissaText mantissa → ExponentText exponent →
    MagnitudeText (mantissa ++ exponent)

/-- The text of a floating-point number. -/
inductive FloatText : List Char → Prop where
  | unsigned {cs : List Char} : MagnitudeText cs → FloatText cs
  | plus {cs : List Char} : MagnitudeText cs → FloatText ('+' :: cs)
  | minus {cs : List Char} : MagnitudeText cs → FloatText ('-' :: cs)

theorem readNat?_eq_some_iff {cs : List Char} {n : Nat} :
    readNat? cs = some n ↔ IsDigits cs ∧ value cs = n := by
  simp only [readNat?, Option.ite_none_right_eq_some, Option.some.injEq, IsDigits,
    List.all_eq_true]

theorem IsDigits.head {c : Char} {ds : List Char} (h : IsDigits (c :: ds)) : c.isDigit :=
  h.2 c List.mem_cons_self

theorem readInt?_eq_some_iff {cs : List Char} {i : Int} :
    readInt? cs = some i ↔ IntegerText cs i := by
  constructor
  · intro h
    unfold readInt? at h
    split at h
    all_goals
      obtain ⟨_, hmap, rfl⟩ := Option.map_eq_some_iff.mp h
      obtain ⟨n, hn, ⟨⟩⟩ := Option.bind_eq_some_iff.mp hmap
      obtain ⟨hdigits, rfl⟩ := readNat?_eq_some_iff.mp hn
    · exact .minus hdigits
    · exact .plus hdigits
    · exact .unsigned hdigits
  · intro h
    cases h with
    | unsigned h =>
      have hread := readNat?_eq_some_iff.mpr ⟨h, rfl⟩
      unfold readInt?
      split
      · exact absurd h.head (by decide)
      · exact absurd h.head (by decide)
      · rw [hread]
        rfl
    | plus h | minus h =>
      rw [readInt?, readNat?_eq_some_iff.mpr ⟨h, rfl⟩]
      rfl

theorem readInt64?_eq_some_iff {cs : List Char} {n : Int64} :
    readInt64? cs = some n ↔ IntegerText cs n.toInt := by
  simp only [readInt64?, Option.bind_eq_some_iff, readInt?_eq_some_iff, toInt64?_eq_some_iff,
    exists_eq_right']

theorem isDigits_digits (n : Nat) : IsDigits (digits n) :=
  ⟨digits_ne_nil n, List.all_eq_true.mp (all_isDigit_digits n)⟩

/-- A whole number as it is written is the text of this number. -/
theorem integerText_ofInt (i : Int) : IntegerText (ofInt i) i := by
  have hdigits := isDigits_digits i.natAbs
  have hvalue := value_digits i.natAbs
  unfold ofInt
  split
  · next hneg =>
    have h := IntegerText.minus hdigits
    rwa [hvalue, show -(i.natAbs : Int) = i by omega] at h
  · next hneg =>
    have h := IntegerText.unsigned hdigits
    rwa [hvalue, show (i.natAbs : Int) = i by omega] at h

theorem isSome_readExponent?_iff {cs : List Char} :
    (readExponent? cs).isSome ↔ ExponentText cs := by
  constructor
  · intro h
    cases cs with
    | nil => exact .nothing
    | cons c cs =>
      obtain ⟨i, hi⟩ := Option.isSome_iff_exists.mp h
      rw [readExponent?, Option.ite_none_right_eq_some] at hi
      exact .power hi.1 (readInt?_eq_some_iff.mp hi.2)
  · intro h
    cases h with
    | nothing => rfl
    | power he hi => rw [readExponent?, if_pos he, readInt?_eq_some_iff.mpr hi]; rfl

theorem ExponentText.not_isDigit {cs : List Char} (h : ExponentText cs) :
    ∀ c ∈ cs.head?, c.isDigit = false := by
  cases h with
  | nothing => nofun
  | power he hi =>
    rintro c ⟨⟩
    obtain rfl | rfl := he <;> rfl

theorem magnitudeText_of_isSome {negative : Bool} {cs : List Char}
    (h : (readMagnitude? negative cs).isSome) : MagnitudeText cs := by
  have hwhole : ∀ d ∈ cs.takeWhile (·.isDigit), d.isDigit := fun d => List.mem_takeWhile_imp
  have hcs : cs.takeWhile (·.isDigit) ++ cs.dropWhile (·.isDigit) = cs :=
    List.takeWhile_append_dropWhile
  unfold readMagnitude? at h
  split at h
  · next hword => exact .word (by simp [hword])
  · next hword => exact .word (by simp [hword])
  · next hword => exact .word (by simp [hword])
  · dsimp only at h
    generalize cs.takeWhile (·.isDigit) = whole, cs.dropWhile (·.isDigit) = rest at h hwhole hcs
    subst hcs
    split at h
    · next tail _ _ _ =>
      have htail : tail.takeWhile (·.isDigit) ++ tail.dropWhile (·.isDigit) = tail :=
        List.takeWhile_append_dropWhile
      have hfraction : ∀ d ∈ tail.takeWhile (·.isDigit), d.isDigit :=
        fun d => List.mem_takeWhile_imp
      dsimp only at h
      split at h
      · cases h
      · next hne =>
        rw [Option.isSome_map, isSome_readExponent?_iff] at h
        have htext := MagnitudeText.finite (.point hwhole hfraction hne) h
        rwa [List.append_assoc, List.cons_append, htail] at htext
    · rw [List.append_nil] at h
      split at h
      · cases h
      · next hne =>
        rw [Option.isSome_map, isSome_readExponent?_iff] at h
        exact .finite (.whole ⟨hne, hwhole⟩) h

theorem MagnitudeText.isSome {cs : List Char} (h : MagnitudeText cs) (negative : Bool) :
    (readMagnitude? negative cs).isSome := by
  unfold readMagnitude?
  split
  · rfl
  · rfl
  · rfl
  · next hinf hinfinity hnan =>
    cases h with
    | word h =>
      have hword : String.ofList (cs.map Char.toLower) ∉ ["inf", "infinity", "nan"] := by
        simpa [← String.toList_inj] using ⟨hinf, hinfinity, hnan⟩
      exact absurd h hword
    | finite hmantissa hexponent =>
      have hread := isSome_readExponent?_iff.mpr hexponent
      have hstop := hexponent.not_isDigit
      dsimp only
      cases hmantissa with
      | whole hdigits =>
        rw [Expr.takeWhile_append_stop hdigits.2 hstop, Expr.dropWhile_append_stop hdigits.2 hstop]
        split
        · cases hexponent with
          | power he _ => simp at he
        · rw [List.append_nil, if_neg hdigits.1, Option.isSome_map]
          exact hread
      | @point whole fraction hwhole hfraction hne =>
        have hpoint (rest : List Char) : ∀ c ∈ ('.' :: rest).head?, c.isDigit = false := by
          rintro c ⟨⟩
          rfl
        rw [List.append_assoc, List.cons_append, Expr.takeWhile_append_stop hwhole (hpoint _),
          Expr.dropWhile_append_stop hwhole (hpoint _)]
        simp only [Expr.takeWhile_append_stop hfraction hstop,
          Expr.dropWhile_append_stop hfraction hstop, if_neg hne, Option.isSome_map]
        exact hread

theorem isSome_readMagnitude?_iff {negative : Bool} {cs : List Char} :
    (readMagnitude? negative cs).isSome ↔ MagnitudeText cs :=
  ⟨magnitudeText_of_isSome, fun h => h.isSome negative⟩

theorem MagnitudeText.not_sign {c : Char} {cs : List Char} (h : MagnitudeText (c :: cs)) :
    c ≠ '-' ∧ c ≠ '+' := by
  constructor <;>
    · rintro rfl
      have := h.isSome false
      cases this

/-- The reader of floating-point numbers accepts the texts of the grammar. -/
theorem isSome_readFloat?_iff {cs : List Char} : (readFloat? cs).isSome ↔ FloatText cs := by
  constructor
  · intro h
    unfold readFloat? at h
    split at h
    · exact .minus (isSome_readMagnitude?_iff.mp h)
    · exact .plus (isSome_readMagnitude?_iff.mp h)
    · exact .unsigned (isSome_readMagnitude?_iff.mp h)
  · intro h
    cases h with
    | unsigned h =>
      unfold readFloat?
      split
      · exact absurd rfl h.not_sign.1
      · exact absurd rfl h.not_sign.2
      · exact h.isSome false
    | plus h => exact h.isSome false
    | minus h => exact h.isSome true

end TemplateEngine.Decimal

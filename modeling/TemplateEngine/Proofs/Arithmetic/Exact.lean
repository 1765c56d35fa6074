import Mathlib.Algebra.Order.Group.Unbundled.Int
import TemplateEngine.Run.Operators

/-! Arithmetic on whole numbers. The operators come to what they come to in the integers, or they
refuse: a division by zero, and a result that no word of 64 bits holds. One remainder is refused
although it is zero, the one of the least number by minus one. -/
namespace TemplateEngine.Operators

open TemplateEngine.Expr (UnaryOp BinaryOp)

/-- Dividing `a` by `b` gives `q` and leaves `r`. What is left is nearer to zero than the divisor
and has the sign of the dividend, so the quotient is cut off toward zero. -/
structure Divided (a b q r : Int) : Prop where
  eq : a = q * b + r
  small : r.natAbs < b.natAbs
  nonneg : 0 ≤ a → 0 ≤ r
  nonpos : a ≤ 0 → r ≤ 0

theorem divided_iff {a b q r : Int} :
    Divided a b q r ↔ b ≠ 0 ∧ a.tdiv b = q ∧ a.tmod b = r := by
  constructor
  · rintro ⟨heq, hsmall, hnonneg, hnonpos⟩
    have hb : b ≠ 0 := by omega
    have heq : r + b * q = a := by rw [heq, mul_comm b q, add_comm]
    refine ⟨hb, ?_⟩
    obtain ha | ha := Int.le_total 0 a
    · exact (Int.tdiv_tmod_unique ha hb).mpr ⟨heq, hnonneg ha, by have := hnonneg ha; omega⟩
    · exact (Int.tdiv_tmod_unique' ha hb).mpr ⟨heq, by have := hnonpos ha; omega, hnonpos ha⟩
  · rintro ⟨hb, rfl, rfl⟩
    exact {
      eq := (Int.tdiv_mul_add_tmod a b).symm
      small := by
        rw [Int.natAbs_tmod]
        exact Nat.mod_lt _ (by omega)
      nonneg := Int.tmod_nonneg b
      nonpos := fun ha => by
        have h := Int.tmod_nonneg b (Int.neg_nonneg_of_nonpos ha)
        rw [Int.neg_tmod] at h
        omega }

/-- What an operator of arithmetic comes to in the integers. -/
inductive Exact : BinaryOp → Int → Int → Int → Prop
  | add {a b : Int} : Exact .add a b (a + b)
  | sub {a b : Int} : Exact .sub a b (a - b)
  | mul {a b : Int} : Exact .mul a b (a * b)
  | div {a b q r : Int} : Divided a b q r → Exact .div a b q
  | mod {a b q r : Int} : Divided a b q r → Exact .mod a b r

/-- A result is the number that it is to be if it can be, and else it is refused: there is no such
number, no word holds it, or it is `barred` on other grounds. -/
structure Computes (result : Except Failure Value) (exact : Int → Prop) (zero barred : Prop) :
    Prop where
  ok (n : Int64) : result = .ok (.int n) ↔ exact n.toInt ∧ ¬barred
  divisionByZero : result = .error .divisionByZero ↔ zero
  overflow : result = .error .overflow ↔ (∃ i, exact i ∧ ∀ n : Int64, n.toInt ≠ i) ∨ barred
  else_nothing : (∃ n, result = .ok (.int n)) ∨ result = .error .divisionByZero ∨
    result = .error .overflow

theorem exact_cases (i : Int) :
    (∃ n : Int64, n.toInt = i ∧ exact i = .ok (.int n)) ∨
      ((∀ n : Int64, n.toInt ≠ i) ∧ exact i = .error .overflow) := by
  cases h : Decimal.toInt64? i with
  | some n => exact .inl ⟨n, Decimal.toInt64?_eq_some_iff.mp h, by simp only [exact, h]⟩
  | none =>
    refine .inr ⟨fun n hn => ?_, by simp only [exact, h]⟩
    rw [Decimal.toInt64?_eq_some_iff.mpr hn] at h
    cases h

theorem computes_exact {i : Int} {p : Int → Prop} (hp : ∀ j, p j ↔ j = i) :
    Computes (exact i) p False False := by
  obtain ⟨n, rfl, h⟩ | ⟨hn, h⟩ := exact_cases i
  · rw [h]
    refine ⟨fun m => ?_, by simp, ?_, .inl ⟨n, rfl⟩⟩
    · rw [hp, Int64.toInt_inj]
      simp [eq_comm]
    · simp [hp]
  · rw [h]
    refine ⟨fun m => ?_, by simp, ?_, .inr (.inr rfl)⟩
    · simp [hp, hn m]
    · simp only [hp, true_iff]
      exact .inl ⟨i, rfl, hn⟩

/-- Only one quotient leaves the range of the words. -/
theorem exact_tdiv {a b : Int64} (h : ¬(a = Int64.minValue ∧ b = -1)) :
    exact (a.toInt.tdiv b.toInt) = .ok (.int (a / b)) := by
  have hq : (a / b).toInt = a.toInt.tdiv b.toInt := by
    obtain ha | hb := Classical.not_and_iff_not_or_not.mp h
    · exact Int64.toInt_div_of_ne_left a b ha
    · exact Int64.toInt_div_of_ne_right a b hb
  rw [exact, Decimal.toInt64?_eq_some_iff.mpr hq]

theorem exact_tdiv_least :
    exact (Int64.minValue.toInt.tdiv (-1 : Int64).toInt) = .error .overflow := by
  rfl

theorem exact_div_iff {a b q : Int} : Exact .div a b q ↔ b ≠ 0 ∧ q = a.tdiv b := by
  constructor
  · intro h
    cases h with
    | div h =>
      obtain ⟨hb, hq, -⟩ := divided_iff.mp h
      exact ⟨hb, hq.symm⟩
  · rintro ⟨hb, rfl⟩
    exact .div (divided_iff.mpr ⟨hb, rfl, rfl⟩)

theorem exact_mod_iff {a b r : Int} : Exact .mod a b r ↔ b ≠ 0 ∧ r = a.tmod b := by
  constructor
  · intro h
    cases h with
    | mod h =>
      obtain ⟨hb, -, hr⟩ := divided_iff.mp h
      exact ⟨hb, hr.symm⟩
  · rintro ⟨hb, rfl⟩
    exact .mod (divided_iff.mpr ⟨hb, rfl, rfl⟩)

theorem toInt_eq_zero_iff {b : Int64} : b.toInt = 0 ↔ b = 0 :=
  Int64.toInt_inj (y := 0)

theorem computes_divisionByZero {p : Int → Prop} (hp : ∀ i, ¬p i) {barred : Prop} (hb : ¬barred) :
    Computes (.error .divisionByZero) p True barred where
  ok n := by simp [hp]
  divisionByZero := by simp
  overflow := by simp [hp, hb]
  else_nothing := .inr (.inl rfl)

theorem computes_barred {p : Int → Prop} : Computes (.error .overflow) p False True where
  ok n := by simp
  divisionByZero := by simp
  overflow := by simp
  else_nothing := .inr (.inr rfl)

theorem computes_div (a b : Int64) :
    Computes (wholeArithmetic .div a.toInt b.toInt) (Exact .div a.toInt b.toInt) (b = 0) False := by
  by_cases hb : b.toInt = 0
  · have hexact (q : Int) : ¬Exact .div a.toInt b.toInt q := by simp [exact_div_iff, hb]
    rw [wholeArithmetic, if_pos hb, eq_true (toInt_eq_zero_iff.mp hb)]
    exact computes_divisionByZero hexact not_false
  · have hexact (q : Int) : Exact .div a.toInt b.toInt q ↔ q = a.toInt.tdiv b.toInt := by
      simp [exact_div_iff, hb]
    rw [wholeArithmetic, if_neg hb, eq_false (mt toInt_eq_zero_iff.mpr hb)]
    exact computes_exact hexact

theorem computes_mod (a b : Int64) :
    Computes (wholeArithmetic .mod a.toInt b.toInt) (Exact .mod a.toInt b.toInt) (b = 0)
      (a = Int64.minValue ∧ b = -1) := by
  simp only [wholeArithmetic]
  by_cases hb : b.toInt = 0
  · have hexact (r : Int) : ¬Exact .mod a.toInt b.toInt r := by simp [exact_mod_iff, hb]
    have hb' : b = 0 := toInt_eq_zero_iff.mp hb
    rw [if_pos hb, eq_true hb']
    exact computes_divisionByZero hexact (by simp [hb'])
  · rw [if_neg hb, eq_false (mt toInt_eq_zero_iff.mpr hb)]
    by_cases h : a = Int64.minValue ∧ b = -1
    · have hquotient : exact (a.toInt.tdiv b.toInt) = .error .overflow := by
        obtain ⟨rfl, rfl⟩ := h
        exact exact_tdiv_least
      rw [hquotient, eq_true h]
      exact computes_barred
    · have hexact (r : Int) : Exact .mod a.toInt b.toInt r ↔ r = a.toInt.tmod b.toInt := by
        simp [exact_mod_iff, hb]
      rw [exact_tdiv h, eq_false h]
      exact computes_exact hexact

theorem computes_binary {op : BinaryOp} (hop : op ∈ [BinaryOp.add, .sub, .mul, .div, .mod])
    (a b : Int64) :
    Computes (binary op (.int a) (.int b)) (Exact op a.toInt b.toInt)
      ((op = .div ∨ op = .mod) ∧ b = 0) (op = .mod ∧ a = Int64.minValue ∧ b = -1) := by
  have hsum (i : Int) : Exact .add a.toInt b.toInt i ↔ i = a.toInt + b.toInt :=
    ⟨fun h => by cases h; rfl, fun h => h ▸ .add⟩
  have hdifference (i : Int) : Exact .sub a.toInt b.toInt i ↔ i = a.toInt - b.toInt :=
    ⟨fun h => by cases h; rfl, fun h => h ▸ .sub⟩
  have hproduct (i : Int) : Exact .mul a.toInt b.toInt i ↔ i = a.toInt * b.toInt :=
    ⟨fun h => by cases h; rfl, fun h => h ▸ .mul⟩
  simp only [List.mem_cons, List.not_mem_nil, or_false] at hop
  obtain rfl | rfl | rfl | rfl | rfl := hop
  · simpa [binary, plus] using computes_exact hsum
  · simpa [binary, arithmetic, wholeArithmetic] using computes_exact hdifference
  · simpa [binary, arithmetic, wholeArithmetic] using computes_exact hproduct
  · simpa [binary, arithmetic] using computes_div a b
  · simpa [binary, arithmetic] using computes_mod a b

/-- Whole numbers under the operators of arithmetic and the sign: the exact result if a word holds
it and the operator is not barred from it, and a refusal otherwise. A quotient and a remainder fit
together. -/
theorem whole_arithmetic (a b : Int64) :
    (∀ op ∈ [BinaryOp.add, .sub, .mul, .div, .mod],
      Computes (binary op (.int a) (.int b)) (Exact op a.toInt b.toInt)
        ((op = .div ∨ op = .mod) ∧ b = 0) (op = .mod ∧ a = Int64.minValue ∧ b = -1)) ∧
    Computes (unary .neg (.int a)) (· = -a.toInt) False False ∧
    ∀ q r : Int64, binary .div (.int a) (.int b) = .ok (.int q) →
      binary .mod (.int a) (.int b) = .ok (.int r) → a.toInt = q.toInt * b.toInt + r.toInt := by
  refine ⟨fun op hop => computes_binary hop a b, computes_exact fun _ => .rfl,
    fun q r hq hr => ?_⟩
  obtain ⟨hq, -⟩ := ((computes_div a b).ok q).mp hq
  obtain ⟨hr, -⟩ := ((computes_mod a b).ok r).mp hr
  rw [(exact_div_iff.mp hq).2, (exact_mod_iff.mp hr).2]
  exact (Int.tdiv_mul_add_tmod _ _).symm

theorem whole_arithmetic_negative_dividend :
    binary .div (.int (-7)) (.int 2) = .ok (.int (-3)) ∧
      binary .mod (.int (-7)) (.int 2) = .ok (.int (-1)) ∧
      (-7 : Int64).toInt = (-3 : Int64).toInt * (2 : Int64).toInt + (-1 : Int64).toInt := by
  obtain ⟨hcomputes, -, hfit⟩ := whole_arithmetic (-7) 2
  have hdivided :
      Divided (-7 : Int64).toInt (2 : Int64).toInt (-3 : Int64).toInt (-1 : Int64).toInt :=
    divided_iff.mpr (by decide)
  have hq : binary .div (.int (-7)) (.int 2) = .ok (.int (-3)) :=
    ((hcomputes .div (by simp)).ok (-3)).mpr ⟨.div hdivided, by simp⟩
  have hr : binary .mod (.int (-7)) (.int 2) = .ok (.int (-1)) :=
    ((hcomputes .mod (by simp)).ok (-1)).mpr ⟨.mod hdivided, by decide⟩
  exact ⟨hq, hr, hfit (-3) (-1) hq hr⟩

/-- Zero is left of the least number by minus one, and zero fits. -/
theorem remainder_of_least :
    Exact .mod Int64.minValue.toInt (-1 : Int64).toInt (0 : Int64).toInt ∧
      binary .mod (.int Int64.minValue) (.int (-1)) = .error .overflow :=
  ⟨.mod (divided_iff.mpr ⟨by decide, rfl, by decide⟩), rfl⟩

end TemplateEngine.Operators

/-! Whole numbers in decimal. Reading a written number gives it back. -/
namespace TemplateEngine.Decimal

/-- The decimal digits of `n`, without leading zeros. -/
def digits (n : Nat) : List Char :=
  if n < 10 then [Nat.digitChar n] else digits (n / 10) ++ [Nat.digitChar (n % 10)]

def digitValue (c : Char) : Nat :=
  c.toNat - 0x30

def value (cs : List Char) : Nat :=
  cs.foldl (fun n c => 10 * n + digitValue c) 0

@[simp] theorem value_nil : value [] = 0 := rfl

@[simp] theorem value_append_singleton (cs : List Char) (c : Char) :
    value (cs ++ [c]) = 10 * value cs + digitValue c := by
  simp [value]

private theorem digitChar_cases {n : Nat} (h : n < 10) :
    digitValue (Nat.digitChar n) = n ∧ (Nat.digitChar n).isDigit := by
  have : ∀ k : Fin 10,
      digitValue (Nat.digitChar k.val) = k.val ∧ (Nat.digitChar k.val).isDigit := by decide
  exact this ⟨n, h⟩

@[simp] theorem value_digits (n : Nat) : value (digits n) = n := by
  induction n using Nat.strongRecOn with
  | _ n ih =>
    rw [digits]
    split
    next h => simp [value, (digitChar_cases h).1]
    next h =>
      rw [value_append_singleton, ih (n / 10) (by omega),
        (digitChar_cases (Nat.mod_lt n (by omega))).1]
      omega

theorem all_isDigit_digits (n : Nat) : (digits n).all (·.isDigit) := by
  induction n using Nat.strongRecOn with
  | _ n ih =>
    rw [digits]
    split
    next h => simp [(digitChar_cases h).2]
    next h => simp [ih (n / 10) (by omega), (digitChar_cases (Nat.mod_lt n (by omega))).2]

theorem digits_ne_nil (n : Nat) : digits n ≠ [] := by
  rw [digits]
  split <;> simp

def ofInt (i : Int) : List Char :=
  if i < 0 then '-' :: digits i.natAbs else digits i.natAbs

/-- Digits and nothing else, at least one. -/
def readNat? (cs : List Char) : Option Nat :=
  if cs ≠ [] ∧ cs.all (·.isDigit) then some (value cs) else none

@[simp] theorem readNat?_digits (n : Nat) : readNat? (digits n) = some n := by
  simp only [readNat?, ne_eq, digits_ne_nil, not_false_eq_true, all_isDigit_digits, and_self,
    ↓reduceIte, value_digits]

/-- The word of 64 bits that holds `i`, if one does. -/
def toInt64? (i : Int) : Option Int64 :=
  if Int64.minValue.toInt ≤ i ∧ i ≤ Int64.maxValue.toInt then some (Int64.ofInt i) else none

theorem toInt64?_eq_some_iff {i : Int} {n : Int64} : toInt64? i = some n ↔ n.toInt = i := by
  unfold toInt64?
  split
  next h =>
    rw [Int64.toInt_minValue, Int64.toInt_maxValue] at h
    have hi : (Int64.ofInt i).toInt = i := Int64.toInt_ofInt_of_le h.1 (by omega)
    rw [Option.some.injEq, ← Int64.toInt_inj, hi, eq_comm]
  next h =>
    refine ⟨nofun, ?_⟩
    rintro rfl
    exact absurd ⟨n.minValue_le_toInt, n.toInt_le⟩ h

/-- Digits after at most one sign. -/
def readInt? : List Char → Option Int
  | '-' :: rest => (readNat? rest).map fun n => -(n : Int)
  | '+' :: rest => (readNat? rest).map fun n => (n : Int)
  | cs => (readNat? cs).map fun n => (n : Int)

/-- Digits without a sign are no negative number. -/
theorem nonneg_of_readInt? {cs : List Char} (hcs : ∀ c ∈ cs, c.isDigit) {i : Int}
    (h : readInt? cs = some i) : 0 ≤ i := by
  unfold readInt? at h
  split at h
  next => exact absurd (hcs '-' (by simp)) (by decide)
  next => exact absurd (hcs '+' (by simp)) (by decide)
  next =>
    cases hn : readNat? cs with
    | none =>
      rw [hn] at h
      cases h
    | some n =>
      rw [hn] at h
      cases h
      exact Int.natCast_nonneg n

def readInt64? (cs : List Char) : Option Int64 :=
  (readInt? cs).bind toInt64?

theorem readInt?_digits (n : Nat) : readInt? (digits n) = some (n : Int) := by
  have hdigits := all_isDigit_digits n
  unfold readInt?
  split
  next rest h => rw [h] at hdigits; simp at hdigits
  next rest h => rw [h] at hdigits; simp at hdigits
  next =>
    rw [readNat?_digits]
    rfl

theorem readInt64?_digits (n : Nat) : readInt64? (digits n) = toInt64? n := by
  rw [readInt64?, readInt?_digits, Option.bind_some]

end TemplateEngine.Decimal

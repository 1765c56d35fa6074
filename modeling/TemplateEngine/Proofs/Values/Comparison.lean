import TemplateEngine.Run.Operators

/-! Equality and order of values. Values without floating-point numbers are equal if they are the
same up to what objects and templates carry beside their identity; whole numbers, strings and truth
values are ordered among themselves, and the two agree. -/
namespace TemplateEngine

namespace Value

mutual

def floatFree : Value → Bool
  | .float _ => false
  | .list items => floatFreeItems items
  | .map entries => floatFreeEntries entries
  | _ => true

def floatFreeItems : List Value → Bool
  | [] => true
  | v :: rest => floatFree v && floatFreeItems rest

def floatFreeEntries : List (String × Value) → Bool
  | [] => true
  | (_, v) :: rest => floatFree v && floatFreeEntries rest

end

/-- A value with no floating-point number in it, however deep. -/
abbrev FloatFree := { v : Value // v.floatFree }

mutual

/-- What equality sees of a value: of an object and of a template it is the identity alone. -/
def identity : Value → Value
  | .list items => .list (identityItems items)
  | .map entries => .map (identityEntries entries)
  | .object o => .object ⟨o.id, "", "", ""⟩
  | .template t => .template ⟨t.id, ""⟩
  | v => v

def identityItems : List Value → List Value
  | [] => []
  | v :: rest => identity v :: identityItems rest

def identityEntries : List (String × Value) → List (String × Value)
  | [] => []
  | (k, v) :: rest => (k, identity v) :: identityEntries rest

end

-- One case for each kind of value on the left; only containers lead on to other values.
mutual

theorem equal_iff (a b : Value) (ha : a.floatFree) (hb : b.floatFree) :
    a.equal b ↔ a.identity = b.identity := by
  cases a with
  | list as =>
    cases b with
    | list bs => simpa [equal, identity] using equalItems_iff as bs ha hb
    | _ => simp [equal, identity]
  | map as =>
    cases b with
    | map bs => simpa [equal, identity] using equalEntries_iff as bs ha hb
    | _ => simp [equal, identity]
  | float x => cases ha
  | _ =>
    cases b with
    | float y => cases hb
    | _ => simp [equal, identity]

theorem equalItems_iff (as bs : List Value) (ha : floatFreeItems as) (hb : floatFreeItems bs) :
    equalItems as bs ↔ identityItems as = identityItems bs := by
  cases as with
  | nil => cases bs <;> simp [equalItems, identityItems]
  | cons a as =>
    cases bs with
    | nil => simp [equalItems, identityItems]
    | cons b bs =>
      simp only [floatFreeItems, Bool.and_eq_true] at ha hb
      simp [equalItems, identityItems, equal_iff a b ha.1 hb.1, equalItems_iff as bs ha.2 hb.2]

theorem equalEntries_iff (as bs : List (String × Value)) (ha : floatFreeEntries as)
    (hb : floatFreeEntries bs) :
    equalEntries as bs ↔ identityEntries as = identityEntries bs := by
  cases as with
  | nil => cases bs <;> simp [equalEntries, identityEntries]
  | cons a as =>
    cases bs with
    | nil => simp [equalEntries, identityEntries]
    | cons b bs =>
      simp only [floatFreeEntries, Bool.and_eq_true] at ha hb
      simp [equalEntries, identityEntries, equal_iff a.2 b.2 ha.1 hb.1,
        equalEntries_iff as bs ha.2 hb.2, and_assoc]

end

/-- Two values of one ordered type. -/
inductive Comparable : Value → Value → Prop where
  | ints (a b : Int64) : Comparable (.int a) (.int b)
  | strings (a b : String) : Comparable (.str a) (.str b)
  | truths (a b : Bool) : Comparable (.bool a) (.bool b)

theorem Comparable.symm {a b : Value} (h : a.Comparable b) : b.Comparable a := by
  cases h with
  | ints => exact .ints ..
  | strings => exact .strings ..
  | truths => exact .truths ..

end Value

namespace Operators

open TemplateEngine.Expr (BinaryOp)
open Value (FloatFree Comparable)

/-- The operators that ask for an order. -/
def orderOps : List BinaryOp :=
  [.lt, .le, .gt, .ge]

/-- An operator comes to `true`. -/
def Says (op : BinaryOp) (a b : Value) : Prop :=
  binary op a b = .ok (.bool true)

section Order

variable {a b c : Value}

theorem exists_compareValues (h : a.Comparable b) : ∃ o, compareValues a b = some o := by
  cases h <;> exact ⟨_, rfl⟩

theorem comparable_of_compareValues {o : Ordering} (ha : a.floatFree) (hb : b.floatFree)
    (h : compareValues a b = some o) : a.Comparable b := by
  cases a with
  | int x =>
    cases b with
    | int y => exact .ints x y
    | float y => cases hb
    | _ => cases h
  | str x =>
    cases b with
    | str y => exact .strings x y
    | _ => cases h
  | bool x =>
    cases b with
    | bool y => exact .truths x y
    | _ => cases h
  | float x => cases ha
  | _ => cases h

theorem compareValues_swap (h : a.Comparable b) :
    compareValues b a = (compareValues a b).map Ordering.swap := by
  cases h with
  | ints x y => exact congrArg some Std.OrientedOrd.eq_swap
  | strings x y => exact congrArg some Std.OrientedOrd.eq_swap
  | truths x y => exact congrArg some Std.OrientedOrd.eq_swap

theorem compareValues_eq_iff (h : a.Comparable b) :
    compareValues a b = some .eq ↔ a.equal b := by
  cases h with
  | ints x y => simp [compareValues, Value.equal, Int64.toInt_inj]
  | strings x y => simp [compareValues, Value.equal]
  | truths x y => cases x <;> cases y <;> decide

theorem compareValues_lt_trans (hab : a.Comparable b) (hbc : b.Comparable c)
    (h : compareValues a b = some .lt) (h' : compareValues b c = some .lt) :
    compareValues a c = some .lt := by
  cases hab with
  | ints x y =>
    cases hbc with
    | ints _ z =>
      exact congrArg some (Std.TransCmp.lt_trans (Option.some.inj h) (Option.some.inj h'))
  | strings x y =>
    cases hbc with
    | strings _ z =>
      exact congrArg some (Std.TransCmp.lt_trans (Option.some.inj h) (Option.some.inj h'))
  | truths x y =>
    cases hbc with
    | truths _ z =>
      exact congrArg some (Std.TransCmp.lt_trans (Option.some.inj h) (Option.some.inj h'))

theorem binary_of_compareValues {op : BinaryOp} (hop : op ∈ orderOps) {o : Ordering}
    (h : compareValues a b = some o) : binary op a b = .ok (.bool (holds op o)) := by
  simp only [orderOps, List.mem_cons, List.not_mem_nil, or_false] at hop
  obtain rfl | rfl | rfl | rfl := hop <;> simp [binary, compared, h]

theorem says_iff_holds {op : BinaryOp} (hop : op ∈ orderOps) {o : Ordering}
    (h : compareValues a b = some o) : Says op a b ↔ holds op o := by
  simp [Says, binary_of_compareValues hop h]

theorem binary_of_not_comparable (ha : a.floatFree) (hb : b.floatFree) (h : ¬a.Comparable b)
    {op : BinaryOp} (hop : op ∈ orderOps) :
    binary op a b = .error (.binaryMismatch op a.typeName b.typeName) := by
  have hnone : compareValues a b = none :=
    Option.eq_none_iff_forall_ne_some.mpr fun _ ho => h (comparable_of_compareValues ha hb ho)
  simp only [orderOps, List.mem_cons, List.not_mem_nil, or_false] at hop
  obtain rfl | rfl | rfl | rfl := hop <;> simp [binary, compared, hnone, mismatch]

theorem evaluates_iff_comparable (ha : a.floatFree) (hb : b.floatFree) {op : BinaryOp}
    (hop : op ∈ orderOps) : (∃ r, binary op a b = .ok (.bool r)) ↔ a.Comparable b := by
  constructor
  · rintro ⟨r, hr⟩
    refine Classical.byContradiction fun h => ?_
    rw [binary_of_not_comparable ha hb h hop] at hr
    cases hr
  · intro h
    obtain ⟨o, ho⟩ := exists_compareValues h
    exact ⟨_, binary_of_compareValues hop ho⟩

theorem Says.comparable {op : BinaryOp} (h : Says op a b) (hop : op ∈ orderOps)
    (ha : a.floatFree) (hb : b.floatFree) : a.Comparable b :=
  (evaluates_iff_comparable ha hb hop).mp ⟨true, h⟩

theorem says_lt_iff (h : a.Comparable b) : Says .lt a b ↔ compareValues a b = some .lt := by
  obtain ⟨o, ho⟩ := exists_compareValues h
  rw [says_iff_holds (by decide) ho, ho]
  cases o <;> decide

end Order

theorem says_eq_iff {a b : Value} : Says .eq a b ↔ a.equal b := by
  simp [Says, binary]

theorem equivalence_says_eq : Equivalence fun a b : FloatFree => Says .eq a.1 b.1 := by
  have hidentity (a b : FloatFree) : Says .eq a.1 b.1 ↔ a.1.identity = b.1.identity :=
    says_eq_iff.trans (Value.equal_iff a.1 b.1 a.2 b.2)
  simp only [hidentity]
  exact ⟨fun _ => rfl, Eq.symm, Eq.trans⟩

/-- Equality of values without floating-point numbers is an equivalence, and `!=` says the opposite.
The four operators of order come to something if both values are whole numbers, both are strings or
both are truth values, and else each of them is refused, whichever side is the left one. Where they
come to something, one value is less than the other, equal to it or greater, and the operators that
allow for equality deny the opposite ones; the order can be read from either side and is
transitive. -/
theorem comparisons_agree :
    Equivalence (fun a b : FloatFree => Says .eq a.1 b.1) ∧
    (∀ a b : FloatFree, ∃ r, binary .eq a.1 b.1 = .ok (.bool r) ∧
      binary .ne a.1 b.1 = .ok (.bool !r)) ∧
    (∀ a b : FloatFree,
      ((∀ op ∈ orderOps, ∃ r, binary op a.1 b.1 = .ok (.bool r)) ↔ a.1.Comparable b.1) ∧
      (¬a.1.Comparable b.1 → ∀ op ∈ orderOps,
        binary op a.1 b.1 = .error (.binaryMismatch op a.1.typeName b.1.typeName) ∧
          binary op b.1 a.1 = .error (.binaryMismatch op b.1.typeName a.1.typeName))) ∧
    (∀ a b : FloatFree, a.1.Comparable b.1 →
      (Says .lt a.1 b.1 ∧ ¬Says .eq a.1 b.1 ∧ ¬Says .gt a.1 b.1 ∨
        ¬Says .lt a.1 b.1 ∧ Says .eq a.1 b.1 ∧ ¬Says .gt a.1 b.1 ∨
        ¬Says .lt a.1 b.1 ∧ ¬Says .eq a.1 b.1 ∧ Says .gt a.1 b.1) ∧
      (Says .le a.1 b.1 ↔ ¬Says .gt a.1 b.1) ∧ (Says .ge a.1 b.1 ↔ ¬Says .lt a.1 b.1) ∧
      (Says .lt a.1 b.1 ↔ Says .gt b.1 a.1)) ∧
    ∀ a b c : FloatFree, Says .lt a.1 b.1 → Says .lt b.1 c.1 → Says .lt a.1 c.1 := by
  refine ⟨equivalence_says_eq, fun a b => ⟨_, rfl, rfl⟩, fun a b => ⟨?_, ?_⟩, ?_, ?_⟩
  · exact ⟨fun h => (evaluates_iff_comparable a.2 b.2 (by decide)).mp (h .lt (by decide)),
      fun h op hop => (evaluates_iff_comparable a.2 b.2 hop).mpr h⟩
  · exact fun h op hop => ⟨binary_of_not_comparable a.2 b.2 h hop,
      binary_of_not_comparable b.2 a.2 (mt Comparable.symm h) hop⟩
  · intro a b h
    obtain ⟨o, ho⟩ := exists_compareValues h
    have hswap : compareValues b.1 a.1 = some o.swap := by
      rw [compareValues_swap h, ho, Option.map_some]
    have heq : Says .eq a.1 b.1 ↔ o = .eq := by
      rw [says_eq_iff, ← compareValues_eq_iff h, ho, Option.some.injEq]
    rw [heq, says_iff_holds (by decide) ho, says_iff_holds (by decide) ho,
      says_iff_holds (by decide) ho, says_iff_holds (by decide) ho,
      says_iff_holds (by decide) hswap]
    cases o <;> decide
  · intro a b c hab hbc
    have hcab := hab.comparable (by decide) a.2 b.2
    have hcbc := hbc.comparable (by decide) b.2 c.2
    have hlt := compareValues_lt_trans hcab hcbc ((says_lt_iff hcab).mp hab)
      ((says_lt_iff hcbc).mp hbc)
    exact (says_iff_holds (by decide) hlt).mpr rfl

/-- A list is equal to itself and not to another one, and the two have no order; strings have
one. -/
theorem comparisons_agree_nested :
    let o : Value := .object ⟨7, "T", "x", "x"⟩
    let a : Value := .list [.map [("k", o)], .null]
    (Says .eq a a ∧ ¬Says .eq a (.list [o]) ∧ Says .ne a (.list [o])) ∧
      binary .lt a (.list [o]) = .error (.binaryMismatch .lt "list" "list") ∧
      Says .lt (.str "a") (.str "c") ∧ Says .gt (.str "c") (.str "a") ∧
      ¬Says .eq (.str "c") (.str "a") := by
  intro o a
  obtain ⟨hequiv, hne, hall, hlaws, htrans⟩ := comparisons_agree
  let list : FloatFree := ⟨a, rfl⟩
  let other : FloatFree := ⟨.list [o], rfl⟩
  let string (s : String) : FloatFree := ⟨.str s, rfl⟩
  have hdiffer : ¬Says .eq a (.list [o]) := by
    simp [a, o, says_eq_iff, Value.equal, Value.equalItems]
  have hordered (s t : String) : (string s).1.Comparable (string t).1 := .strings s t
  have hac : Says .lt (string "a").1 (string "c").1 :=
    htrans (string "a") (string "b") (string "c") rfl rfl
  refine ⟨⟨hequiv.refl list, hdiffer, ?_⟩, ?_, hac, ?_, ?_⟩
  · obtain ⟨r, heq, hne⟩ := hne list other
    cases r with
    | true => exact absurd heq hdiffer
    | false => exact hne
  · exact ((hall list other).2 nofun .lt (by decide)).1
  · exact (hlaws _ _ (hordered "a" "c")).2.2.2.mp hac
  · have hgt := (hlaws _ _ (hordered "a" "c")).2.2.2.mp hac
    obtain ⟨-, -, h⟩ | ⟨-, -, h⟩ | ⟨-, h, -⟩ := (hlaws _ _ (hordered "c" "a")).1
    · exact absurd hgt h
    · exact absurd hgt h
    · exact h

end Operators

end TemplateEngine

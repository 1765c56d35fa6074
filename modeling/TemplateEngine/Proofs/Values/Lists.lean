import TemplateEngine.Proofs.Values.Comparison
import TemplateEngine.Run.Resolve

/-! The ways into a list. What its methods answer and how it is written is said in terms of its
indices, from the start and from the end. -/
namespace TemplateEngine

open TemplateEngine.Operators (Says)

/-- The ways into a list. Where the count of the elements matters, it has to be one that a word
holds; no list in memory has more. -/
structure ListAccess (s : Scope) (eval : ExprId → Except DataError Value) (xs : List Value) :
    Prop where
  fromStart : ∀ (i : Int64) (k : Nat) (h : k < xs.length), i.toInt = k →
    s.access eval (.list xs) (.index i) = .ok xs[k]
  fromEnd : ∀ (i : Int64) (k : Nat) (h : k < xs.length), i.toInt = k - xs.length →
    s.access eval (.list xs) (.index i) = .ok xs[k]
  outside : ∀ i : Int64, i.toInt < -xs.length ∨ xs.length ≤ i.toInt →
    s.access eval (.list xs) (.index i) = .error (.indexOutOfRange i xs.length)
  first : xs ≠ [] →
    s.access eval (.list xs) (.call "first" []) = s.access eval (.list xs) (.index 0)
  last : xs ≠ [] →
    s.access eval (.list xs) (.call "last" []) = s.access eval (.list xs) (.index (-1))
  len : xs.length ≤ Int64.maxValue.toInt → ∃ n : Int64,
    s.access eval (.list xs) (.call "len" []) = .ok (.int n) ∧ n.toInt = xs.length
  contains : ∀ (arg : ExprId) (v : Value), eval arg = .ok v → ∃ r,
    s.access eval (.list xs) (.call "contains" [arg]) = .ok (.bool r) ∧
      (r = true ↔ ∃ w ∈ xs, Says .eq w v) ∧
      (xs.length ≤ Int64.maxValue.toInt →
        (r = true ↔ ∃ i w, s.access eval (.list xs) (.index i) = .ok w ∧ Says .eq w v))
  join : ∀ arg : ExprId, eval arg = .ok (.str ", ") → ∃ text,
    s.access eval (.list xs) (.call "join" [arg]) = .ok (.str text) ∧
      (Value.list xs).render = "[" ++ text ++ "]"

theorem indexPlace?_eq_some_iff {length k : Nat} (hk : k < length) {i : Int} :
    indexPlace? length i = some k ↔ i = k ∨ i = k - length := by
  unfold indexPlace?
  split
  · simp only [Option.some.injEq]
    omega
  · split
    · simp only [Option.some.injEq]
      omega
    · simp only [reduceCtorEq, false_iff]
      omega

theorem elementAt_of_place (host : Host) {xs : List Value} {i : Int64} {k : Nat}
    (hk : k < xs.length) (hi : i.toInt = k ∨ i.toInt = k - xs.length) :
    elementAt host (.list xs) i = .ok xs[k] := by
  have hplace := (indexPlace?_eq_some_iff hk).mpr hi
  simp only [elementAt, hplace, Option.bind_some, List.getElem?_eq_getElem hk]

theorem elementAt_of_no_place (host : Host) {xs : List Value} {i : Int64}
    (hi : i.toInt < -xs.length ∨ xs.length ≤ i.toInt) :
    elementAt host (.list xs) i = .error (.indexOutOfRange i xs.length) := by
  have hnone : (indexPlace? xs.length i.toInt).bind (xs[·]?) = none := by
    unfold indexPlace?
    split
    · rw [Option.bind_some, List.getElem?_eq_none (by omega)]
    · rw [if_neg (by omega), Option.bind_none]
  simp only [elementAt, hnone]

theorem exists_place {length : Nat} {i : Int} (h : ¬(i < -length ∨ length ≤ i)) :
    ∃ k < length, i = k ∨ i = k - length := by
  by_cases hi : 0 ≤ i
  · exact ⟨i.toNat, by omega, .inl (by omega)⟩
  · exact ⟨(i + length).toNat, by omega, .inr (by omega)⟩

theorem toInt_natCast {n : Nat} (h : n ≤ Int64.maxValue.toInt) :
    (Int64.ofIntClamp n).toInt = n := by
  have hmin : Int64.minValue.toInt = -9223372036854775808 := rfl
  exact Int64.toInt_ofIntClamp (by omega) h

/-- All elements can be had by their indices, and nothing else. -/
theorem exists_elementAt_iff (host : Host) {xs : List Value}
    (hlength : xs.length ≤ Int64.maxValue.toInt) {w : Value} :
    (∃ i, elementAt host (.list xs) i = .ok w) ↔ w ∈ xs := by
  constructor
  · rintro ⟨i, hi⟩
    by_cases hout : i.toInt < -xs.length ∨ xs.length ≤ i.toInt
    · rw [elementAt_of_no_place host hout] at hi
      cases hi
    · obtain ⟨k, hk, hplace⟩ := exists_place hout
      rw [elementAt_of_place host hk hplace] at hi
      cases hi
      exact List.getElem_mem hk
  · intro hw
    obtain ⟨k, hk, rfl⟩ := List.getElem_of_mem hw
    have hi : (Int64.ofIntClamp k).toInt = k := toInt_natCast (by omega)
    exact ⟨_, elementAt_of_place host hk (.inl hi)⟩

namespace Scope

variable {s : Scope} {eval : ExprId → Except DataError Value}

theorem access_unary {arg : ExprId} {a : Value} (h : eval arg = .ok a) (v : Value)
    (method : String) :
    s.access eval v (.call method [arg]) = Methods.call s.host v method [a] := by
  simp only [access, List.mapM_cons, List.mapM_nil, h]
  rfl

theorem listAccess (xs : List Value) : ListAccess s eval xs where
  fromStart i k hk hi := elementAt_of_place s.host hk (.inl hi)
  fromEnd i k hk hi := elementAt_of_place s.host hk (.inr hi)
  outside i hi := elementAt_of_no_place s.host hi
  first hne := by
    have hpos := List.length_pos_iff.mpr hne
    have hfirst : s.access eval (.list xs) (.index 0) = .ok xs[0] :=
      elementAt_of_place s.host hpos (.inl rfl)
    rw [hfirst, ← List.head_eq_getElem hne]
    change Except.ok (xs.head?.getD .null) = _
    rw [List.head?_eq_some_head hne, Option.getD_some]
  last hne := by
    have hpos := List.length_pos_iff.mpr hne
    have hlast : s.access eval (.list xs) (.index (-1)) = .ok xs[xs.length - 1] := by
      have hi : (-1 : Int64).toInt = -1 := rfl
      exact elementAt_of_place s.host (by omega) (.inr (by omega))
    rw [hlast, ← List.getLast_eq_getElem hne]
    change Except.ok (xs.getLast?.getD .null) = _
    rw [List.getLast?_eq_some_getLast hne, Option.getD_some]
  len hlength := ⟨_, rfl, toInt_natCast hlength⟩
  contains arg v harg := by
    have hany : xs.any (·.equal v) = true ↔ ∃ w ∈ xs, Says .eq w v := by
      simp only [List.any_eq_true, Operators.says_eq_iff]
    refine ⟨_, access_unary harg (.list xs) "contains", hany, fun hlength => hany.trans ?_⟩
    constructor
    · rintro ⟨w, hw, heq⟩
      obtain ⟨i, hi⟩ := (exists_elementAt_iff s.host hlength).mpr hw
      exact ⟨i, w, hi, heq⟩
    · rintro ⟨i, w, hi, heq⟩
      exact ⟨w, (exists_elementAt_iff s.host hlength).mp ⟨i, hi⟩, heq⟩
  join arg harg := by
    refine ⟨_, access_unary harg (.list xs) "join", ?_⟩
    rw [Value.render, Value.renderItems_eq_map]

end Scope

end TemplateEngine

import Mathlib.Data.List.Forall2
import TemplateEngine.Proofs.Values.Lists

/-! The ways into a map. A map keeps its entries in the order of their keys, whichever order they
were added in, and what its methods answer is said in terms of its keys. -/
namespace TemplateEngine

/-- The ways into a map. -/
structure MapAccess (s : Scope) (eval : ExprId → Except DataError Value) (m : Value) : Prop where
  field : ∀ (k : String) (w : Value),
    s.access eval m (.field k) = .ok w ↔ s.access eval m (.key k) = .ok w
  containsKey : ∀ (arg : ExprId) (k : String), eval arg = .ok (.str k) → ∃ r,
    s.access eval m (.call "contains_key" [arg]) = .ok (.bool r) ∧
      (r = true ↔ ∃ w, s.access eval m (.key k) = .ok w) ∧
      (r = false ↔ s.access eval m (.key k) = .error (.noKey k) ∧
        s.access eval m (.field k) = .error (.noField k "map"))
  listed : ∃ (keys : List String) (values : List Value),
    s.access eval m (.call "keys" []) = .ok (.list (keys.map .str)) ∧
      s.access eval m (.call "values" []) = .ok (.list values) ∧
      keys.Pairwise (· < ·) ∧
      List.Forall₂ (fun k v => s.access eval m (.key k) = .ok v) keys values ∧
      ∀ k, (∃ w, s.access eval m (.key k) = .ok w) → k ∈ keys

namespace Value

/-- Entries as a map has them: in increasing order of their keys, each key once. -/
def Ordered (entries : List (String × Value)) : Prop :=
  entries.Pairwise fun a b => a.1 < b.1

theorem key_of_mem_insertEntry {key : String} {v : Value} {entries : List (String × Value)}
    {e : String × Value} (h : e ∈ insertEntry key v entries) :
    e.1 = key ∨ ∃ d ∈ entries, d.1 = e.1 := by
  induction entries with
  | nil =>
    rw [insertEntry, List.mem_singleton] at h
    exact .inl (by rw [h])
  | cons d rest ih =>
    rw [insertEntry] at h
    split at h
    · obtain rfl | h := List.mem_cons.mp h
      · exact .inl rfl
      · exact .inr ⟨e, h, rfl⟩
    · split at h
      · obtain rfl | h := List.mem_cons.mp h
        · exact .inl rfl
        · exact .inr ⟨e, List.mem_cons_of_mem _ h, rfl⟩
      · obtain rfl | h := List.mem_cons.mp h
        · exact .inr ⟨_, List.mem_cons_self, rfl⟩
        · exact (ih h).imp_right fun ⟨d, hd, heq⟩ => ⟨d, List.mem_cons_of_mem _ hd, heq⟩

theorem Ordered.insertEntry {entries : List (String × Value)} (h : Ordered entries) (key : String)
    (v : Value) : Ordered (insertEntry key v entries) := by
  induction entries with
  | nil => exact List.pairwise_singleton _ _
  | cons d rest ih =>
    obtain ⟨hd, hrest⟩ := List.pairwise_cons.mp h
    rw [Value.insertEntry]
    split
    · next hlt =>
      refine List.pairwise_cons.mpr ⟨List.forall_mem_cons.mpr ⟨hlt, fun e he => ?_⟩, h⟩
      exact String.lt_trans hlt (hd e he)
    · next hnlt =>
      split
      · next heq =>
        refine List.pairwise_cons.mpr ⟨fun e he => ?_, hrest⟩
        rw [heq]
        exact hd e he
      · next hne =>
        have hkey : d.1 < key := Std.lt_of_le_of_ne (String.not_lt.mp hnlt) (Ne.symm hne)
        refine List.pairwise_cons.mpr ⟨fun e he => ?_, ih hrest⟩
        obtain heq | ⟨c, hc, heq⟩ := key_of_mem_insertEntry he
        · rw [heq]
          exact hkey
        · rw [← heq]
          exact hd c hc

theorem exists_ofEntries (entries : List (String × Value)) :
    ∃ ordered, ofEntries entries = .map ordered ∧ Ordered ordered := by
  have hfold (m : List (String × Value)) (hm : Ordered m) :
      Ordered (entries.foldl (fun m e => insertEntry e.1 e.2 m) m) := by
    induction entries generalizing m with
    | nil => exact hm
    | cons e rest ih => exact ih _ (hm.insertEntry e.1 e.2)
  exact ⟨_, rfl, hfold [] List.Pairwise.nil⟩

theorem insertEntry_of_greater {key : String} {v : Value} {entries : List (String × Value)}
    (h : ∀ e ∈ entries, e.1 < key) : insertEntry key v entries = entries ++ [(key, v)] := by
  induction entries with
  | nil => rfl
  | cons d rest ih =>
    obtain ⟨hd, hrest⟩ := List.forall_mem_cons.mp h
    have hne : key ≠ d.1 := fun heq => String.lt_irrefl key (heq ▸ hd)
    rw [insertEntry, if_neg (String.not_lt.mpr (Std.le_of_lt hd)), if_neg hne, ih hrest]
    rfl

/-- Entries that are in order already are kept as they are. -/
theorem ofEntries_of_ordered {entries : List (String × Value)} (h : Ordered entries) :
    ofEntries entries = .map entries := by
  have hfold (m rest : List (String × Value)) (hm : Ordered (m ++ rest)) :
      rest.foldl (fun m e => insertEntry e.1 e.2 m) m = m ++ rest := by
    induction rest generalizing m with
    | nil => simp
    | cons e rest ih =>
      have hbefore := (List.pairwise_append.mp hm).2.2
      rw [List.foldl_cons, insertEntry_of_greater fun d hd => hbefore d hd e List.mem_cons_self]
      rw [ih _ (by simpa using hm), List.append_assoc, List.singleton_append]
  exact congrArg Value.map (hfold [] entries h)

theorem Ordered.lookup_eq_some {entries : List (String × Value)} (h : Ordered entries)
    {e : String × Value} (he : e ∈ entries) : entries.lookup e.1 = some e.2 := by
  induction entries with
  | nil => cases he
  | cons d rest ih =>
    obtain ⟨hd, hrest⟩ := List.pairwise_cons.mp h
    obtain rfl | he := List.mem_cons.mp he
    · exact List.lookup_cons_self
    · have hne : e.1 ≠ d.1 := fun heq => String.lt_irrefl d.1 (heq ▸ hd e he)
      rw [List.lookup_cons, beq_eq_false_iff_ne.mpr hne]
      exact ih hrest he

end Value

namespace Scope

variable {s : Scope} {eval : ExprId → Except DataError Value} {entries : List (String × Value)}

theorem access_key_eq_ok_iff {k : String} {w : Value} :
    s.access eval (.map entries) (.key k) = .ok w ↔ entries.lookup k = some w := by
  simp only [access, entryAt]
  cases entries.lookup k <;> simp

theorem access_field_eq_ok_iff {k : String} {w : Value} :
    s.access eval (.map entries) (.field k) = .ok w ↔ entries.lookup k = some w := by
  simp only [access, fieldOf]
  cases entries.lookup k <;> simp

theorem mapAccess (h : Value.Ordered entries) : MapAccess s eval (.map entries) where
  field k w := access_field_eq_ok_iff.trans access_key_eq_ok_iff.symm
  containsKey arg k harg := by
    refine ⟨_, access_unary harg (.map entries) "contains_key", ?_, ?_⟩
    · simp only [access_key_eq_ok_iff, Option.isSome_iff_exists]
    · simp only [access, entryAt, fieldOf]
      cases entries.lookup k <;> simp [Value.typeName]
  listed := by
    refine ⟨entries.map (·.1), entries.map (·.2), ?_, rfl, ?_, ?_, ?_⟩
    · rw [List.map_map]
      rfl
    · exact List.pairwise_map.mpr h
    · rw [List.forall₂_map_left_iff, List.forall₂_map_right_iff, List.forall₂_same]
      exact fun e he => access_key_eq_ok_iff.mpr (h.lookup_eq_some he)
    · rintro k ⟨w, hw⟩
      obtain ⟨first, rest, rfl, -⟩ := List.lookup_eq_some_iff.mp (access_key_eq_ok_iff.mp hw)
      simp

end Scope

end TemplateEngine

import TemplateEngine.Proofs.Text.Cut
import TemplateEngine.Text.Nesting

/-! What a search for a character at top level passes over. A text that it passes is cut off as a
whole where the character follows, and texts that it passes come out of a splitting as they went
in. -/
namespace TemplateEngine.Text

namespace Nesting

/-- Where a search for `stop` stands after a text, if it does not stop in it. -/
def past (stop : Char) (n : Nesting) : List Char → Option Nesting
  | [] => some n
  | c :: cs => if n.isTop && c == stop then none else past stop (n.step c) cs

variable {stop : Char} {n m : Nesting} {cs : List Char}

theorem past_append (a b : List Char) :
    past stop n (a ++ b) = (past stop n a).bind fun m => past stop m b := by
  induction a generalizing n with
  | nil => rfl
  | cons c a ih =>
    rw [List.cons_append, past, past]
    split
    · rfl
    · exact ih

theorem past_trans {a b : List Char} {k : Nesting} (ha : past stop n a = some m)
    (hb : past stop m b = some k) : past stop n (a ++ b) = some k := by
  rw [past_append, ha, Option.bind_some, hb]

theorem cutFrom_of_past (h : past stop n cs = some m) (seen rest : List Char) :
    cutFrom stop n seen (cs ++ rest) = cutFrom stop m (cs.reverse ++ seen) rest := by
  induction cs generalizing n seen with
  | nil =>
    cases h
    rfl
  | cons c cs ih =>
    rw [past] at h
    split at h
    · cases h
    · next hstop =>
      rw [List.cons_append, cutFrom, if_neg hstop, ih h, List.reverse_cons, List.append_assoc]
      rfl

/-- Characters that open or close quotes or brackets. -/
def enclosing : List Char :=
  ['\x22', '\x27', '(', '[', ')', ']']

/-- Characters that decide where a search at top level stops. -/
def delimiters : List Char :=
  ['\x22', '\x27', '(', '[', ')', ']', ',', '>']

theorem step_of_not_enclosing {c : Char} {depth : Nat} (h : c ∉ enclosing) :
    step { depth } c = { depth } := by
  simp only [enclosing, List.mem_cons, List.not_mem_nil, or_false, not_or] at h
  simp [step, h]

/-- Outside of quotes a search passes all other characters and stands where it stood. -/
theorem past_of_not_enclosing {depth : Nat} (h : ∀ c ∈ cs, c ≠ stop ∧ c ∉ enclosing) :
    past stop { depth } cs = some { depth } := by
  induction cs with
  | nil => rfl
  | cons c cs ih =>
    obtain ⟨⟨hstop, hc⟩, hcs⟩ := List.forall_mem_cons.mp h
    rw [past, step_of_not_enclosing hc, ih hcs, if_neg (by simp [hstop])]

theorem past_of_not_delimiter {depth : Nat} (hstop : stop ∈ delimiters)
    (h : ∀ c ∈ cs, c ∉ delimiters) :
    past stop { depth } cs = some { depth } := by
  have hsub : enclosing ⊆ delimiters := by decide
  exact past_of_not_enclosing fun c hc => ⟨fun heq => h c hc (heq ▸ hstop), mt (@hsub c) (h c hc)⟩

end Nesting

open Nesting

variable {stop : Char} {cs : List Char}

theorem cutAtTop_of_past (h : past stop {} cs = some {}) (after : List Char) :
    cutAtTop stop (cs ++ stop :: after) = some (cs, after) := by
  rw [cutAtTop, cutFrom_of_past h, Nesting.cutFrom, if_pos (by simp [isTop])]
  simp

theorem cutAtTop_eq_none_of_past {n : Nesting} (h : past stop {} cs = some n) :
    cutAtTop stop cs = none := by
  have hcut := cutFrom_of_past h [] []
  rw [List.append_nil] at hcut
  rw [cutAtTop, hcut, Nesting.cutFrom]

theorem splitAtTop_of_past {n : Nesting} (h : past stop {} cs = some n) :
    splitAtTop stop cs = [cs] := by
  rw [splitAtTop]
  split
  · next hcut =>
    rw [cutAtTop_eq_none_of_past h] at hcut
    cases hcut
  · rfl

theorem splitAtTop_append (h : past stop {} cs = some {}) (rest : List Char) :
    splitAtTop stop (cs ++ stop :: rest) = cs :: splitAtTop stop rest := by
  rw [splitAtTop]
  split
  · next hcut =>
    rw [cutAtTop_of_past h] at hcut
    cases hcut
    rfl
  · next hcut =>
    rw [cutAtTop_of_past h] at hcut
    cases hcut

/-- Parts that a search for the separator passes, put together with separators and split again. -/
theorem splitAtTop_intercalate {parts : List (List Char)} (hne : parts ≠ [])
    (h : ∀ part ∈ parts, past stop {} part = some {}) :
    splitAtTop stop ([stop].intercalate parts) = parts := by
  induction parts with
  | nil => exact absurd rfl hne
  | cons part rest ih =>
    obtain ⟨hpart, hrest⟩ := List.forall_mem_cons.mp h
    cases rest with
    | nil => rw [List.intercalate_singleton, splitAtTop_of_past hpart]
    | cons next more =>
      rw [List.intercalate_cons_cons, List.append_assoc, List.singleton_append,
        splitAtTop_append hpart, ih (List.cons_ne_nil _ _) hrest]

end TemplateEngine.Text

import Mathlib.Data.List.Forall2
import Mathlib.Data.Nat.Digits.Defs
import TemplateEngine.Marker.Basic
import TemplateEngine.Proofs.Text.Passed

/-! Code points in base sixteen: the texts that are read as a character, and the character that each
of them is. -/
namespace TemplateEngine

/-- The digits of base sixteen, each at the place of its value. -/
def HexDigit (c : Char) (n : Nat) : Prop :=
  "0123456789abcdef".toList[n]? = some c ∨ "0123456789ABCDEF".toList[n]? = some c

instance (c : Char) (n : Nat) : Decidable (HexDigit c n) :=
  inferInstanceAs (Decidable (_ ∨ _))

/-- One to six digits of base sixteen, the first one of which counts most, whose value is the code
point of a character. -/
structure Hexadecimal (cs : List Char) (c : Char) : Prop where
  nonempty : cs ≠ []
  length_le : cs.length ≤ 6
  value : ∃ ds, List.Forall₂ HexDigit cs ds ∧ Nat.ofDigits 16 ds.reverse = c.toNat

/-- The texts of a character. A plus sign counts as one of the six characters. -/
inductive CodePointText : List Char → Char → Prop where
  | digits {cs : List Char} {c : Char} : Hexadecimal cs c → CodePointText cs c
  | signed {cs : List Char} {c : Char} : Hexadecimal cs c → cs.length ≤ 5 →
    CodePointText ('+' :: cs) c

theorem HexDigit.lt {c : Char} {n : Nat} (h : HexDigit c n) : n < 16 := by
  obtain h | h := h
  · exact (List.getElem?_eq_some_iff.mp h).1
  · exact (List.getElem?_eq_some_iff.mp h).1

/-- What all digits satisfy. -/
theorem HexDigit.of_all {p : Char → Bool}
    (hp : ("0123456789abcdef".toList ++ "0123456789ABCDEF".toList).all p) {c : Char} {n : Nat}
    (h : HexDigit c n) : p c :=
  List.all_eq_true.mp hp c (List.mem_append.mpr (h.imp List.mem_of_getElem? List.mem_of_getElem?))

theorem HexDigit.utf8Size {c : Char} {n : Nat} (h : HexDigit c n) : c.utf8Size = 1 :=
  of_decide_eq_true (h.of_all (p := (·.utf8Size = 1)) (by decide))

theorem HexDigit.not_delimiter {c : Char} {n : Nat} (h : HexDigit c n) :
    c ∉ Text.Nesting.delimiters :=
  of_decide_eq_true (h.of_all (p := (· ∉ Text.Nesting.delimiters)) (by decide))

theorem Hexadecimal.not_signed {cs : List Char} {c : Char} : ¬Hexadecimal ('+' :: cs) c := by
  rintro ⟨-, -, ds, hds, -⟩
  obtain ⟨d, _, hd, -⟩ := List.forall₂_cons_left_iff.mp hds
  exact of_decide_eq_true (hd.of_all (p := (· ≠ '+')) (by decide)) rfl

theorem Hexadecimal.not_delimiter {cs : List Char} {c : Char} (h : Hexadecimal cs c) :
    ∀ d ∈ cs, d ∉ Text.Nesting.delimiters := by
  obtain ⟨ds, hds, -⟩ := h.value
  exact ((List.forall₂_and_left _ _).mp (hds.imp fun _ _ hd => ⟨hd.not_delimiter, hd⟩)).1

/-- Nothing in a code point could end the marker that it stands in. -/
theorem CodePointText.not_delimiter {cs : List Char} {c : Char} (h : CodePointText cs c) :
    ∀ d ∈ cs, d ∉ Text.Nesting.delimiters := by
  cases h with
  | digits h => exact h.not_delimiter
  | signed h _ => exact List.forall_mem_cons.mpr ⟨by decide, h.not_delimiter⟩

namespace Marker

theorem hexDigit?_eq_some_iff {c : Char} {n : Nat} : hexDigit? c = some n ↔ HexDigit c n := by
  constructor
  · intro h
    have hcode : c.toNat < 128 := by
      unfold hexDigit? at h
      have hle {d : Char} (hd : c ≤ d) : c.toNat ≤ d.toNat := hd
      split at h
      · next hc => exact Nat.lt_of_le_of_lt (hle hc.2) (by decide)
      · split at h
        · next hc => exact Nat.lt_of_le_of_lt (hle hc.2) (by decide)
        · split at h
          · next hc => exact Nat.lt_of_le_of_lt (hle hc.2) (by decide)
          · cases h
    -- All digits are ASCII, so that both directions are checked on finitely many characters.
    have hall : ∀ m < 128, ∀ n ∈ hexDigit? (Char.ofNat m), HexDigit (Char.ofNat m) n := by
      decide +kernel
    have hdigit := hall c.toNat hcode n
    rw [Char.ofNat_toNat] at hdigit
    exact hdigit h
  · intro h
    have hall : ∀ n < 16, "0123456789abcdef".toList[n]?.all (hexDigit? · = some n) ∧
        "0123456789ABCDEF".toList[n]?.all (hexDigit? · = some n) := by decide +kernel
    obtain ⟨hlower, hupper⟩ := hall n h.lt
    obtain h | h := h
    · rw [h] at hlower
      exact of_decide_eq_true hlower
    · rw [h] at hupper
      exact of_decide_eq_true hupper

theorem mapM_hexDigit?_eq_some_iff {cs : List Char} {ds : List Nat} :
    cs.mapM hexDigit? = some ds ↔ List.Forall₂ HexDigit cs ds := by
  induction cs generalizing ds with
  | nil => simp [List.forall₂_nil_left_iff, eq_comm]
  | cons c cs ih =>
    simp only [List.mapM_cons, List.forall₂_cons_left_iff, Option.bind_eq_bind,
      Option.bind_eq_some_iff, hexDigit?_eq_some_iff, ih, Option.pure_def, Option.some.injEq]
    simp only [eq_comm, exists_and_left]

theorem readHex?_eq_some_iff {cs : List Char} {n : Nat} :
    readHex? cs = some n ↔
      cs ≠ [] ∧ ∃ ds, List.Forall₂ HexDigit cs ds ∧ Nat.ofDigits 16 ds.reverse = n := by
  have hvalue (ds : List Nat) :
      ds.foldl (fun n d => 16 * n + d) 0 = Nat.ofDigits 16 ds.reverse := by
    rw [Nat.ofDigits_eq_foldr, List.foldr_reverse]
    simp only [Nat.cast_id, Nat.add_comm]
  unfold readHex?
  split
  · next hempty => simp [List.isEmpty_iff.mp hempty]
  · next hempty =>
    simp only [Option.map_eq_some_iff, mapM_hexDigit?_eq_some_iff, hvalue]
    rw [List.isEmpty_iff] at hempty
    exact ⟨fun h => ⟨hempty, h⟩, fun h => h.2⟩

theorem byteLength_of_forall₂ {cs : List Char} {ds : List Nat} (h : List.Forall₂ HexDigit cs ds) :
    Text.byteLength cs = cs.length := by
  induction h with
  | nil => rfl
  | cons hc _ ih => rw [Text.byteLength_cons, hc.utf8Size, ih, List.length_cons, Nat.add_comm]

/-- The character of a code point that was read. -/
theorem exists_char_iff {n : Nat} {c : Char} :
    (if n.isValidChar then some (Char.ofNat n) else none) = some c ↔ n = c.toNat := by
  constructor
  · intro h
    split at h
    · next hvalid =>
      cases h
      rw [Char.ofNat, dif_pos hvalid]
      rfl
    · cases h
  · rintro rfl
    have hvalid : c.toNat.isValidChar := c.valid
    rw [if_pos hvalid, Char.ofNat_toNat]

theorem bind_readHex?_eq_some_iff {cs : List Char} {c : Char} :
    ((readHex? cs).bind fun n => if n.isValidChar then some (Char.ofNat n) else none) = some c ↔
      cs ≠ [] ∧ ∃ ds, List.Forall₂ HexDigit cs ds ∧ Nat.ofDigits 16 ds.reverse = c.toNat := by
  simp only [Option.bind_eq_some_iff, readHex?_eq_some_iff, exists_char_iff]
  constructor
  · rintro ⟨_, h, rfl⟩
    exact h
  · exact fun h => ⟨_, h, rfl⟩

theorem codePoint?_eq_some_iff {cs : List Char} {c : Char} :
    codePoint? cs = some c ↔ CodePointText cs c := by
  constructor
  · intro h
    unfold codePoint? at h
    split at h
    · cases h
    · next hlength =>
      rw [bind_readHex?_eq_some_iff] at h
      split at h
      · next rest =>
        obtain ⟨hne, ds, hds, hvalue⟩ := h
        rw [Text.byteLength_cons, byteLength_of_forall₂ hds] at hlength
        have hplus : '+'.utf8Size = 1 := by decide
        have hrest : rest.length ≤ 5 := by omega
        exact .signed ⟨hne, Nat.le_succ_of_le hrest, ds, hds, hvalue⟩ hrest
      · obtain ⟨hne, ds, hds, hvalue⟩ := h
        rw [byteLength_of_forall₂ hds, Nat.not_lt] at hlength
        exact .digits ⟨hne, hlength, ds, hds, hvalue⟩
  · intro h
    cases h with
    | digits h =>
      obtain ⟨hne, hlength, ds, hds, hvalue⟩ := h
      unfold codePoint?
      rw [byteLength_of_forall₂ hds, if_neg (Nat.not_lt.mpr hlength), bind_readHex?_eq_some_iff]
      -- Digits are not taken for a sign and the digits behind it.
      split
      · next rest => exact absurd ⟨hne, hlength, ds, hds, hvalue⟩ Hexadecimal.not_signed
      · exact ⟨hne, ds, hds, hvalue⟩
    | @signed rest _ h hlength =>
      obtain ⟨hne, -, ds, hds, hvalue⟩ := h
      have hplus : '+'.utf8Size = 1 := by decide
      unfold codePoint?
      rw [Text.byteLength_cons, byteLength_of_forall₂ hds, hplus, if_neg (by omega),
        bind_readHex?_eq_some_iff]
      exact ⟨hne, ds, hds, hvalue⟩

end Marker

end TemplateEngine

import TemplateEngine.Text.Position
import TemplateEngine.Text.Split

/-! Texts as bytes. A byte of an ASCII character stands for nothing else, so it does not matter
whether one looks for such characters among the characters of a text or among its bytes. -/
namespace TemplateEngine.Text

def utf8 (cs : List Char) : List UInt8 :=
  cs.flatMap String.utf8EncodeChar

@[simp] theorem utf8_nil : utf8 [] = [] := rfl

@[simp] theorem utf8_cons (c : Char) (cs : List Char) :
    utf8 (c :: cs) = String.utf8EncodeChar c ++ utf8 cs := rfl

@[simp] theorem utf8_append (a b : List Char) : utf8 (a ++ b) = utf8 a ++ utf8 b :=
  List.flatMap_append

@[simp] theorem length_utf8 (cs : List Char) : (utf8 cs).length = byteLength cs := by
  induction cs with
  | nil => rfl
  | cons c cs ih => simp [ih]

def isAscii (c : Char) : Bool :=
  c.toNat < 0x80

/-- The byte that an ASCII character is. -/
def byteOf (c : Char) : UInt8 :=
  c.val.toUInt8

theorem toNat_byteOf {c : Char} (h : isAscii c) : (byteOf c).toNat = c.toNat := by
  have hlt : c.toNat < 0x80 := of_decide_eq_true h
  change c.val.toUInt8.toNat = _
  rw [UInt32.toNat_toUInt8]
  change c.toNat % 256 = c.toNat
  omega

theorem byteOf_lt {c : Char} (h : isAscii c) : byteOf c < 0x80 := by
  rw [UInt8.lt_iff_toNat_lt, toNat_byteOf h]
  exact of_decide_eq_true h

theorem ne_byteOf_of_le {c : Char} {b : UInt8} (h : isAscii c) (hb : 0x80 ≤ b) : b ≠ byteOf c := by
  rintro rfl
  exact absurd (byteOf_lt h) (UInt8.not_lt.mpr hb)

theorem byteOf_inj {c d : Char} (hc : isAscii c) (hd : isAscii d) :
    byteOf c = byteOf d ↔ c = d := by
  refine ⟨fun h => ?_, fun h => h ▸ rfl⟩
  have hnat := congrArg UInt8.toNat h
  rw [toNat_byteOf hc, toNat_byteOf hd] at hnat
  exact Char.toNat_inj.mp hnat

theorem utf8EncodeChar_of_isAscii {c : Char} (h : isAscii c) :
    String.utf8EncodeChar c = [byteOf c] := by
  apply String.utf8EncodeChar_eq_singleton
  have hlt : c.toNat < 0x80 := of_decide_eq_true h
  rw [Char.utf8Size_eq_one_iff, UInt32.le_iff_toNat_le]
  exact Nat.le_of_lt_succ hlt

/-- No byte of any other character is that of an ASCII character. -/
theorem le_of_mem_utf8EncodeChar {c : Char} (h : isAscii c = false) {b : UInt8}
    (hb : b ∈ String.utf8EncodeChar c) : 0x80 ≤ b := by
  have hlt : ¬c.val.toNat < 0x80 := of_decide_eq_false h
  have hofNat (n : Nat) (hn : n < 256) (hle : 128 ≤ n) : (0x80 : UInt8) ≤ UInt8.ofNat n := by
    rw [UInt8.le_iff_toNat_le, UInt8.toNat_ofNat_of_lt' hn]
    exact hle
  unfold String.utf8EncodeChar at hb
  dsimp only at hb
  rw [if_neg (by omega)] at hb
  split at hb
  · simp only [List.mem_cons, List.not_mem_nil, or_false] at hb
    obtain rfl | rfl := hb <;> apply hofNat <;> omega
  · split at hb
    · simp only [List.mem_cons, List.not_mem_nil, or_false] at hb
      obtain rfl | rfl | rfl := hb <;> apply hofNat <;> omega
    · simp only [List.mem_cons, List.not_mem_nil, or_false] at hb
      obtain rfl | rfl | rfl | rfl := hb <;> apply hofNat <;> omega

theorem exists_utf8EncodeChar (c : Char) :
    ∃ b bytes, String.utf8EncodeChar c = b :: bytes ∧ ∀ x ∈ bytes, 0x80 ≤ x := by
  by_cases hc : isAscii c
  · exact ⟨_, [], utf8EncodeChar_of_isAscii hc, List.forall_mem_nil _⟩
  · have hall := fun b => le_of_mem_utf8EncodeChar (b := b) (Bool.eq_false_iff.mpr hc)
    cases hbytes : String.utf8EncodeChar c with
    | nil =>
      have hlength := String.length_utf8EncodeChar c
      have hpos := c.utf8Size_pos
      rw [hbytes, List.length_nil] at hlength
      omega
    | cons b bytes =>
      exact ⟨b, bytes, rfl, fun x hx => hall x (hbytes ▸ List.mem_cons_of_mem b hx)⟩

/-- A text begins with the byte of an ASCII character if it begins with the character. -/
theorem getElem?_utf8_zero {d : Char} (hd : isAscii d) (cs : List Char) :
    (utf8 cs)[0]? = some (byteOf d) ↔ cs.head? = some d := by
  cases cs with
  | nil => simp
  | cons c cs =>
    by_cases hc : isAscii c
    · rw [utf8_cons, utf8EncodeChar_of_isAscii hc]
      simp [byteOf_inj hc hd]
    · obtain ⟨b, bytes, hbytes, -⟩ := exists_utf8EncodeChar c
      have hb : 0x80 ≤ b :=
        le_of_mem_utf8EncodeChar (Bool.eq_false_iff.mpr hc) (hbytes ▸ List.mem_cons_self)
      have hcd : c ≠ d := by
        rintro rfl
        exact hc hd
      rw [utf8_cons, hbytes]
      simp [ne_byteOf_of_le hd hb, hcd]

/-! Looking for words. -/

/-- The place at which a word first occurs among bytes. -/
def findBytes? (word : List UInt8) : List UInt8 → Option Nat
  | [] => if word = [] then some 0 else none
  | b :: bytes =>
    if word.isPrefixOf (b :: bytes) then some 0 else (findBytes? word bytes).map (· + 1)

/-- The byte at which a word first occurs in a text. -/
def find? (word cs : List Char) : Option Nat :=
  (cut word cs).map fun (before, _) => byteLength before

section Find

variable {c : Char} {word : List Char} (hc : isAscii c) (hword : ∀ d ∈ word, isAscii d)
include hc

/-- Words of ASCII characters are the first part of a text if their bytes are. -/
theorem isPrefixOf_utf8_cons (d : Char) (cs : List Char) :
    (utf8 (c :: word)).isPrefixOf (utf8 (d :: cs)) =
      (decide (c = d) && (utf8 word).isPrefixOf (utf8 cs)) := by
  rw [utf8_cons, utf8EncodeChar_of_isAscii hc]
  by_cases hd : isAscii d
  · rw [utf8_cons, utf8EncodeChar_of_isAscii hd]
    simp only [List.cons_append, List.nil_append, List.isPrefixOf_cons_cons]
    congr 1
    rw [Bool.eq_iff_iff, beq_iff_eq, decide_eq_true_iff, byteOf_inj hc hd]
  · have hne : c ≠ d := by
      rintro rfl
      exact hd hc
    rw [decide_eq_false hne, Bool.false_and, utf8_cons]
    obtain ⟨b, bytes, hbytes, -⟩ := exists_utf8EncodeChar d
    have hb : 0x80 ≤ b :=
      le_of_mem_utf8EncodeChar (Bool.eq_false_iff.mpr hd) (hbytes ▸ List.mem_cons_self)
    have hne : byteOf c ≠ b := (ne_byteOf_of_le hc hb).symm
    rw [hbytes, List.singleton_append, List.cons_append, List.isPrefixOf_cons_cons,
      beq_eq_false_iff_ne.mpr hne, Bool.false_and]

omit hc in
include hword in
theorem isPrefixOf_utf8 (cs : List Char) :
    (utf8 word).isPrefixOf (utf8 cs) = (stripPrefix? word cs).isSome := by
  induction word generalizing cs with
  | nil => simp [stripPrefix?]
  | cons d word ih =>
    obtain ⟨hd, hword⟩ := List.forall_mem_cons.mp hword
    cases cs with
    | nil => simp [stripPrefix?, utf8EncodeChar_of_isAscii hd]
    | cons e cs =>
      rw [isPrefixOf_utf8_cons hd, stripPrefix?, ih hword]
      by_cases hde : d = e <;> simp [hde]

/-- A word that begins with an ASCII character does not begin inside another character. -/
theorem findBytes?_append_of_le {bytes : List UInt8} (hbytes : ∀ b ∈ bytes, 0x80 ≤ b)
    (rest : List UInt8) :
    findBytes? (utf8 (c :: word)) (bytes ++ rest) =
      (findBytes? (utf8 (c :: word)) rest).map (· + bytes.length) := by
  induction bytes with
  | nil => simp
  | cons b bytes ih =>
    obtain ⟨hb, hbytes⟩ := List.forall_mem_cons.mp hbytes
    have hne : byteOf c ≠ b := (ne_byteOf_of_le hc hb).symm
    have hprefix : (utf8 (c :: word)).isPrefixOf (b :: (bytes ++ rest)) = false := by
      rw [utf8_cons, utf8EncodeChar_of_isAscii hc, List.singleton_append,
        List.isPrefixOf_cons_cons, beq_eq_false_iff_ne.mpr hne, Bool.false_and]
    rw [List.cons_append, findBytes?, hprefix, ih hbytes]
    simp [Function.comp_def, Nat.add_assoc]

include hword in
/-- Looking among the bytes is the same as looking among the characters. -/
theorem findBytes?_utf8 (cs : List Char) :
    findBytes? (utf8 (c :: word)) (utf8 cs) = find? (c :: word) cs := by
  have hfrom (seen : List Char) : (cutFrom (c :: word) seen cs).map (fun x => byteLength x.1) =
      (findBytes? (utf8 (c :: word)) (utf8 cs)).map (byteLength seen.reverse + ·) := by
    induction cs generalizing seen with
    | nil => simp [cutFrom, findBytes?, utf8EncodeChar_of_isAscii hc]
    | cons d cs ih =>
      obtain ⟨b, bytes, hd, hbytes⟩ := exists_utf8EncodeChar d
      have hlength := String.length_utf8EncodeChar d
      have hprefix := isPrefixOf_utf8 (List.forall_mem_cons.mpr ⟨hc, hword⟩) (d :: cs)
      rw [hd, List.length_cons] at hlength
      rw [utf8_cons d, hd, List.cons_append] at hprefix ⊢
      rw [findBytes?, cutFrom, hprefix]
      cases stripPrefix? (c :: word) (d :: cs) with
      | some after => simp
      | none =>
        rw [findBytes?_append_of_le hc hbytes]
        simp only [ih, Option.isSome_none, Bool.false_eq_true, if_false, Option.map_map,
          Function.comp_def, List.reverse_cons, byteLength_append, byteLength_cons, byteLength_nil,
          ← hlength]
        congr 1
        funext n
        omega
  have h := hfrom []
  simpa [find?, cut] using h.symm

end Find

end TemplateEngine.Text

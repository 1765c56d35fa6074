import TemplateEngine.Proofs.Bytes.Utf8

/-! Parts of a text by the bytes at which they start and stop. There is no such part if it would
start or stop beyond the end of the text or inside a character, or stop before it starts. -/
namespace TemplateEngine.Text

/-- What follows the first `offset` bytes of a text, if a character ends there. -/
def dropBytes? : (offset : Nat) → List Char → Option (List Char)
  | 0, cs => some cs
  | _ + 1, [] => none
  | n + 1, c :: cs => if c.utf8Size ≤ n + 1 then dropBytes? (n + 1 - c.utf8Size) cs else none

def slice? (cs : List Char) (start stop : Nat) : Option (List Char) :=
  if start ≤ stop then (dropBytes? start cs).bind (takeBytes? (stop - start)) else none

def sliceFrom? (cs : List Char) (start : Nat) : Option (List Char) :=
  slice? cs start (byteLength cs)

/-- The bytes from a place on. -/
def bytesFrom? (bytes : List UInt8) (start : Nat) : Option (List UInt8) :=
  if start ≤ bytes.length then some (bytes.drop start) else none

/-- How far it is from one place to another one, which must not come before it. -/
def distance? (start stop : Nat) : Option Nat :=
  if start ≤ stop then some (stop - start) else none

theorem distance?_of_le {start stop : Nat} (h : start ≤ stop) :
    distance? start stop = some (stop - start) :=
  if_pos h

theorem byteLength_le_of_suffix {a b : List Char} (h : a <:+ b) : byteLength a ≤ byteLength b := by
  obtain ⟨first, rfl⟩ := h
  rw [byteLength_append]
  omega

/-- A line break takes two bytes or one. -/
theorem byteLength_lineBreak (cs : List Char) :
    byteLength cs - byteLength (dropLineBreak cs) =
      if (stripPrefix? ['\r', '\n'] cs).isSome then 2
      else if (stripPrefix? ['\n'] cs).isSome then 1
      else 0 := by
  have hsome (word : List Char) : (stripPrefix? word cs).isSome ↔ ∃ rest, cs = word ++ rest := by
    simp only [Option.isSome_iff_exists, stripPrefix?_eq_some_iff]
  unfold dropLineBreak
  split
  · next rest =>
    rw [if_pos ((hsome _).mpr ⟨rest, rfl⟩), byteLength_cons, byteLength_cons, ← Nat.add_assoc,
      Nat.add_sub_cancel]
    rfl
  · next rest =>
    rw [if_neg (by simp [stripPrefix?]), if_pos ((hsome _).mpr ⟨rest, rfl⟩), byteLength_cons,
      Nat.add_sub_cancel]
    rfl
  · next hnobreak hnofeed =>
    rw [if_neg fun h => ?_, if_neg fun h => ?_, Nat.sub_self]
    · obtain ⟨rest, hrest⟩ := (hsome _).mp h
      exact hnofeed rest hrest
    · obtain ⟨rest, hrest⟩ := (hsome _).mp h
      exact hnobreak rest hrest

theorem takeBytes?_append (t after : List Char) :
    takeBytes? (byteLength t) (t ++ after) = some t := by
  induction t with
  | nil => cases after <;> rfl
  | cons c t ih =>
    have hpos := c.utf8Size_pos
    rw [List.cons_append, takeBytes?, byteLength_cons, if_neg (by omega), if_pos (by omega),
      Nat.add_sub_cancel_left, ih]
    rfl

theorem dropBytes?_append (before t : List Char) :
    dropBytes? (byteLength before) (before ++ t) = some t := by
  induction before with
  | nil => rw [byteLength_nil, List.nil_append, dropBytes?]
  | cons c before ih =>
    have hpos := c.utf8Size_pos
    obtain ⟨n, hn⟩ := Nat.exists_eq_add_of_lt (Nat.add_pos_left hpos (byteLength before))
    rw [List.cons_append, byteLength_cons, hn, Nat.zero_add, dropBytes?, if_pos (by omega), ← ih]
    congr 1
    omega

theorem exists_of_takeBytes? {offset : Nat} {cs t : List Char} (h : takeBytes? offset cs = some t) :
    ∃ after, cs = t ++ after ∧ byteLength t = offset := by
  fun_induction takeBytes? offset cs generalizing t with
  | case1 | case3 =>
    cases h
    exact ⟨_, rfl, rfl⟩
  | case2 offset hne => cases h
  | case4 offset c cs hne hle ih =>
    obtain ⟨t, ht, rfl⟩ := Option.map_eq_some_iff.mp h
    obtain ⟨after, rfl, hlength⟩ := ih ht
    exact ⟨after, rfl, by rw [byteLength_cons]; omega⟩
  | case5 offset c cs hne hlt => cases h

theorem exists_of_dropBytes? {offset : Nat} {cs t : List Char} (h : dropBytes? offset cs = some t) :
    ∃ before, cs = before ++ t ∧ byteLength before = offset := by
  fun_induction dropBytes? offset cs with
  | case1 cs =>
    cases h
    exact ⟨[], rfl, rfl⟩
  | case2 n => cases h
  | case3 n c cs hle ih =>
    obtain ⟨before, rfl, hlength⟩ := ih h
    exact ⟨c :: before, rfl, by rw [byteLength_cons]; omega⟩
  | case4 n c cs hlt => cases h

/-- A part of a text stands between a first part and a last part. -/
theorem slice?_eq_some_iff {cs t : List Char} {start stop : Nat} :
    slice? cs start stop = some t ↔ ∃ before after, cs = before ++ (t ++ after) ∧
      byteLength before = start ∧ start + byteLength t = stop := by
  unfold slice?
  constructor
  · intro h
    split at h
    · next hle =>
      obtain ⟨rest, hrest, ht⟩ := Option.bind_eq_some_iff.mp h
      obtain ⟨before, rfl, rfl⟩ := exists_of_dropBytes? hrest
      obtain ⟨after, rfl, hlength⟩ := exists_of_takeBytes? ht
      exact ⟨before, after, rfl, rfl, by omega⟩
    · cases h
  · rintro ⟨before, after, rfl, rfl, rfl⟩
    rw [if_pos (Nat.le_add_right _ _), dropBytes?_append, Option.bind_some, Nat.add_sub_cancel_left,
      takeBytes?_append]

theorem slice?_of_eq {cs before t after : List Char} {start stop : Nat}
    (h : cs = before ++ (t ++ after)) (hstart : start = byteLength before)
    (hstop : stop = start + byteLength t) : slice? cs start stop = some t :=
  slice?_eq_some_iff.mpr ⟨before, after, h, hstart.symm, hstop.symm⟩

theorem sliceFrom?_of_eq {cs before t : List Char} {start : Nat} (h : cs = before ++ t)
    (hstart : start = byteLength before) : sliceFrom? cs start = some t := by
  refine slice?_eq_some_iff.mpr ⟨before, [], by rw [h, List.append_nil], hstart.symm, ?_⟩
  rw [h, byteLength_append, hstart]

theorem bytesFrom?_of_eq {cs before t : List Char} {start : Nat} (h : cs = before ++ t)
    (hstart : start = byteLength before) : bytesFrom? (utf8 cs) start = some (utf8 t) := by
  subst h hstart
  rw [bytesFrom?, if_pos (by simp), utf8_append, List.drop_left' (length_utf8 before)]

theorem getElem?_utf8 (before cs : List Char) :
    (utf8 (before ++ cs))[byteLength before]? = (utf8 cs)[0]? := by
  rw [utf8_append, List.getElem?_append_right (Nat.le_of_eq (length_utf8 before)), length_utf8,
    Nat.sub_self]

end TemplateEngine.Text

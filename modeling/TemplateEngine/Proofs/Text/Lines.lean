import TemplateEngine.Proofs.Bytes.InRange

/-! Lines and columns. The position of a place tells how many lines end before it and how much of
the last line is there, so places in a text have different positions, and a text that is put before
another moves its lines on and leaves its columns as they are. All this is so as long as the numbers
fit into their words. -/
namespace TemplateEngine.Text

/-- A line and a column, however large. -/
structure Place where
  line : Nat
  column : Nat

namespace Place

/-- The order of places in a text, by lines first. -/
def Before (p q : Place) : Prop :=
  p.line < q.line ∨ p.line = q.line ∧ p.column < q.column

/-- Counting from one, the line is told by the line feeds in the text before a place, and the column
by the characters after the last of them. -/
structure Tells (p : Place) (before : List Char) : Prop where
  line : p.line = before.count '\n' + 1
  column : ∃ lines last, before = lines ++ last ∧ (∀ c ∈ lines.getLast?, c = '\n') ∧
    '\n' ∉ last ∧ p.column = last.length + 1

def after (before : List Char) : Place where
  line := before.count '\n' + 1
  column := (before.reverse.takeWhile (· != '\n')).length + 1

def ofOffset (source : List Char) (offset : Nat) : Place :=
  after ((takeBytes? offset source).getD source)

def Fits (p : Place) : Prop :=
  p.line < UInt32.size ∧ p.column < UInt32.size

/-- A place as it is told, in words. -/
def position (p : Place) : Position :=
  ⟨.ofNatClamp p.line, .ofNatClamp p.column⟩

theorem tells_after (before : List Char) : (after before).Tells before where
  line := rfl
  column := by
    refine ⟨(before.reverse.dropWhile (· != '\n')).reverse,
      (before.reverse.takeWhile (· != '\n')).reverse, ?_, ?_, ?_, by simp [after]⟩
    · rw [← List.reverse_append, List.takeWhile_append_dropWhile, List.reverse_reverse]
    · intro c hc
      rw [List.getLast?_reverse] at hc
      have := List.head?_dropWhile_not (· != '\n') before.reverse
      rw [hc] at this
      simpa using this
    · intro h
      simpa using List.mem_takeWhile_imp (List.mem_reverse.mp h)

/-- More text leads to a later position: to another line if a line ends in it, else further to the
right on the same line. -/
theorem before_after_append {before more : List Char} (h : more ≠ []) :
    (after before).Before (after (before ++ more)) := by
  by_cases hfeed : '\n' ∈ more
  · have := List.count_pos_iff.mpr hfeed
    left
    simp only [after, List.count_append]
    omega
  · have hpass : ∀ c ∈ more.reverse, (c != '\n') = true := by
      intro c hc
      simp only [bne_iff_ne, ne_eq]
      rintro rfl
      exact hfeed (List.mem_reverse.mp hc)
    have hpos := List.length_pos_iff.mpr h
    right
    constructor
    · simp only [after, List.count_append, List.count_eq_zero_of_not_mem hfeed, Nat.add_zero]
    · rw [after, after, List.reverse_append, List.takeWhile_append_of_pos hpass,
        List.length_append, List.length_reverse]
      dsimp only
      omega

/-- Lines that are put before a text do not change its columns. -/
theorem after_append {first : List Char} (h : first.getLast? = some '\n') (before : List Char) :
    after (first ++ before) =
      ⟨(after before).line + first.count '\n', (after before).column⟩ := by
  obtain ⟨first, rfl⟩ := List.getLast?_eq_some_iff.mp h
  have hlast : ((first ++ ['\n'] ++ before).reverse.takeWhile (· != '\n')) =
      before.reverse.takeWhile (· != '\n') := by
    rw [List.reverse_append, List.takeWhile_append]
    split
    · next hall =>
      rw [(List.takeWhile_prefix _).eq_of_length hall]
      simp
    · rfl
  simp only [after, hlast, List.count_append, Place.mk.injEq, and_true]
  omega

theorem ofOffset_append (before rest : List Char) :
    ofOffset (before ++ rest) (byteLength before) = after before := by
  rw [ofOffset, takeBytes?_append, Option.getD_some]

theorem ofOffset_beyond {source : List Char} {offset : Nat} (h : byteLength source ≤ offset) :
    ofOffset source offset = ofOffset source (byteLength source) := by
  rw [ofOffset, ← takeBytes?_min, Nat.min_eq_right h, ofOffset]

end Place

theorem takeBytes?_past (first rest : List Char) (offset : Nat) :
    takeBytes? (byteLength first + offset) (first ++ rest) =
      (takeBytes? offset rest).map (first ++ ·) := by
  induction first with
  | nil => simp
  | cons c first ih =>
    have hpos := c.utf8Size_pos
    have hoffset : c.utf8Size + byteLength first + offset - c.utf8Size =
        byteLength first + offset := by omega
    rw [byteLength_cons, List.cons_append, takeBytes?, if_neg (by omega), if_pos (by omega),
      hoffset, ih, Option.map_map]
    rfl

theorem length_le_byteLength (cs : List Char) : cs.length ≤ byteLength cs := by
  induction cs with
  | nil => exact Nat.le_refl _
  | cons c cs ih =>
    have := c.utf8Size_pos
    rw [byteLength_cons, List.length_cons]
    omega

theorem byteLength_eq_length_iff {cs : List Char} :
    byteLength cs = cs.length ↔ ∀ c ∈ cs, c.utf8Size = 1 := by
  induction cs with
  | nil => simp
  | cons c cs ih =>
    have := c.utf8Size_pos
    have := length_le_byteLength cs
    rw [byteLength_cons, List.length_cons, List.forall_mem_cons, ← ih]
    omega

theorem byteLength_replicate {c : Char} (hc : c.utf8Size = 1) (n : Nat) :
    byteLength (List.replicate n c) = n := by
  rw [byteLength_eq_length_iff.mpr fun d hd => (List.eq_of_mem_replicate hd).symm ▸ hc,
    List.length_replicate]

namespace Place

theorem ofOffset_past {first : List Char} (h : first.getLast? = some '\n') (rest : List Char)
    (offset : Nat) : ofOffset (first ++ rest) (byteLength first + offset) =
      ⟨(ofOffset rest offset).line + first.count '\n', (ofOffset rest offset).column⟩ := by
  have hbefore : ((takeBytes? (byteLength first + offset) (first ++ rest)).getD (first ++ rest)) =
      first ++ (takeBytes? offset rest).getD rest := by
    rw [takeBytes?_past]
    cases takeBytes? offset rest <;> rfl
  rw [ofOffset, hbefore, after_append h, ofOffset]

theorem ofOffset_before {source : List Char} {a b : Nat} (ha : IsBoundary source a)
    (hb : IsBoundary source b) (h : a < b) : (ofOffset source a).Before (ofOffset source b) := by
  obtain ⟨before, rest, rfl, rfl⟩ := ha
  obtain ⟨through, rest', hsource, rfl⟩ := hb
  obtain ⟨more, rfl, -⟩ := exists_of_byteLength_le hsource (Nat.le_of_lt h)
  have hmore : more ≠ [] := by
    rintro rfl
    simp at h
  rw [ofOffset_append, hsource, ofOffset_append]
  exact before_after_append hmore

end Place

namespace Position

def place (p : Position) : Place :=
  ⟨p.line.toNat, p.column.toNat⟩

/-- The order of positions in a text, by lines first. -/
def Before (p q : Position) : Prop :=
  p.line < q.line ∨ p.line = q.line ∧ p.column < q.column

theorem before_iff {p q : Position} : p.Before q ↔ p.place.Before q.place := by
  rw [Before, UInt32.lt_iff_toNat_lt, UInt32.lt_iff_toNat_lt, ← UInt32.toNat_inj]
  rfl

theorem Before.ne {p q : Position} (h : p.Before q) : p ≠ q := by
  rintro rfl
  obtain hline | ⟨-, hcolumn⟩ := h
  · exact UInt32.lt_irrefl _ hline
  · exact UInt32.lt_irrefl _ hcolumn

theorem place_fits (p : Position) : p.place.Fits :=
  ⟨p.line.toNat_lt_size, p.column.toNat_lt_size⟩

theorem place_position {p : Place} (h : p.Fits) : p.position.place = p := by
  rw [place, Place.position, UInt32.toNat_ofNatClamp_of_lt h.1, UInt32.toNat_ofNatClamp_of_lt h.2]

theorem ofOffset_eq (source : List Char) (offset : Nat) :
    ofOffset source offset = (Place.ofOffset source offset).position :=
  rfl

theorem ofOffset_beyond {source : List Char} {offset : Nat} (h : byteLength source ≤ offset) :
    ofOffset source offset = ofOffset source (byteLength source) := by
  rw [ofOffset_eq, Place.ofOffset_beyond h, ofOffset_eq]

/-- Places of the later text fit if they do behind the lines before it. -/
theorem ofOffset_past {first rest : List Char} {offset : Nat} (h : first.getLast? = some '\n')
    (hfits : (Place.ofOffset (first ++ rest) (byteLength first + offset)).Fits) :
    (ofOffset (first ++ rest) (byteLength first + offset)).line.toNat =
        (ofOffset rest offset).line.toNat + first.count '\n' ∧
      (ofOffset (first ++ rest) (byteLength first + offset)).column =
        (ofOffset rest offset).column := by
  rw [Place.ofOffset_past h] at hfits
  have hrest : (Place.ofOffset rest offset).line < UInt32.size :=
    Nat.lt_of_le_of_lt (Nat.le_add_right _ _) hfits.1
  rw [ofOffset_eq, Place.ofOffset_past h, ofOffset_eq]
  refine ⟨?_, rfl⟩
  dsimp only [Place.position]
  rw [UInt32.toNat_ofNatClamp_of_lt hfits.1, UInt32.toNat_ofNatClamp_of_lt hrest]

end Position

/-- The positions of a text go by its lines. -/
structure Lined (source : List Char) : Prop where
  tells : ∀ before rest, source = before ++ rest →
    (Position.ofOffset source (byteLength before)).place.Tells before
  beyond : ∀ offset, byteLength source ≤ offset →
    Position.ofOffset source offset = Position.ofOffset source (byteLength source)
  increasing : ∀ a b, IsBoundary source a → IsBoundary source b → a < b →
    (Position.ofOffset source a).Before (Position.ofOffset source b)
  distinct : ∀ a b, IsBoundary source a → IsBoundary source b →
    Position.ofOffset source a = Position.ofOffset source b → a = b
  shifted : ∀ first rest, source = first ++ rest → first.getLast? = some '\n' → ∀ offset,
    (Position.ofOffset source (byteLength first + offset)).line.toNat =
        (Position.ofOffset rest offset).line.toNat + first.count '\n' ∧
      (Position.ofOffset source (byteLength first + offset)).column =
        (Position.ofOffset rest offset).column

theorem lined_of_fits {source : List Char}
    (hfits : ∀ offset, (Place.ofOffset source offset).Fits) : Lined source := by
  have hplace (offset : Nat) :
      (Position.ofOffset source offset).place = Place.ofOffset source offset := by
    rw [Position.ofOffset_eq, Position.place_position (hfits offset)]
  have hincreasing (a b : Nat) (ha : IsBoundary source a) (hb : IsBoundary source b) (h : a < b) :
      (Position.ofOffset source a).Before (Position.ofOffset source b) := by
    rw [Position.before_iff, hplace, hplace]
    exact Place.ofOffset_before ha hb h
  refine ⟨?_, ?_, hincreasing, ?_, ?_⟩
  · intro before rest h
    rw [hplace, h, Place.ofOffset_append]
    exact Place.tells_after before
  · exact fun _ => Position.ofOffset_beyond
  · intro a b ha hb h
    obtain hlt | heq | hlt := Nat.lt_trichotomy a b
    · exact absurd h (hincreasing a b ha hb hlt).ne
    · exact heq
    · exact absurd h.symm (hincreasing b a hb ha hlt).ne
  · rintro first rest rfl hfirst offset
    exact Position.ofOffset_past hfirst (hfits (byteLength first + offset))

/-- A single line, or nothing but ends of lines, with as many of its bytes as a word can count.
There is one column or one line more than that. -/
def Overlong (source : List Char) : Prop :=
  byteLength source = UInt32.size - 1 ∧ (∀ c ∈ source, c.utf8Size = 1) ∧
    ('\n' ∉ source ∨ ∀ c ∈ source, c = '\n')

/-- Text of which a word only just counts the bytes has so many characters only as a whole, and if
each of them is a byte. -/
theorem eq_of_filled {before rest : List Char} (h : byteLength (before ++ rest) < UInt32.size)
    (hlength : UInt32.size ≤ before.length + 1) :
    rest = [] ∧ before.length + 1 = UInt32.size ∧ ∀ c ∈ before, c.utf8Size = 1 := by
  rw [byteLength_append] at h
  have hbefore := length_le_byteLength before
  have hrest := length_le_byteLength rest
  exact ⟨List.eq_nil_of_length_eq_zero (by omega), by omega,
    byteLength_eq_length_iff.mp (by omega)⟩

theorem Place.after_fits {before rest : List Char} (h : byteLength (before ++ rest) < UInt32.size)
    (hlong : ¬Overlong (before ++ rest)) : (after before).Fits := by
  have hcount := List.count_le_length (a := '\n') (l := before)
  have hlast := (List.takeWhile_sublist (· != '\n') (l := before.reverse)).length_le
  rw [List.length_reverse] at hlast
  by_cases hlength : before.length + 1 < UInt32.size
  · exact ⟨Nat.lt_of_le_of_lt (Nat.succ_le_succ hcount) hlength,
      Nat.lt_of_le_of_lt (Nat.succ_le_succ hlast) hlength⟩
  obtain ⟨rfl, hsize, hbytes⟩ := eq_of_filled h (Nat.le_of_not_lt hlength)
  rw [List.append_nil] at hlong
  have hfull : byteLength before = UInt32.size - 1 := by
    rw [byteLength_eq_length_iff.mpr hbytes, ← hsize, Nat.add_sub_cancel]
  -- Now there is a line feed among the characters, but also something else.
  obtain ⟨hfeed, hother⟩ := not_or.mp fun hends => hlong ⟨hfull, hbytes, hends⟩
  have hcount' : before.count '\n' ≠ before.length := fun hall =>
    hother fun c hc => (List.count_eq_length.mp hall c hc).symm
  have hlast' : (before.reverse.takeWhile (· != '\n')).length ≠ before.length := by
    intro hall
    have hwhole := (List.takeWhile_prefix (· != '\n')).eq_of_length
      (hall.trans List.length_reverse.symm)
    refine hfeed fun hmem => ?_
    rw [← List.mem_reverse, ← hwhole] at hmem
    simpa using List.mem_takeWhile_imp hmem
  rw [Fits, ← hsize]
  exact ⟨Nat.succ_lt_succ (Nat.lt_of_le_of_ne hcount hcount'),
    Nat.succ_lt_succ (Nat.lt_of_le_of_ne hlast hlast')⟩

theorem Place.ofOffset_fits {source : List Char} (h : byteLength source < UInt32.size)
    (hlong : ¬Overlong source) (offset : Nat) : (ofOffset source offset).Fits := by
  rw [ofOffset]
  cases htake : takeBytes? offset source with
  | none =>
    rw [← List.append_nil source] at h hlong
    exact after_fits h hlong
  | some before =>
    obtain ⟨rest, rfl, -⟩ := exists_of_takeBytes? htake
    exact after_fits h hlong

/-- The place at the end of such a text does not fit into words. -/
theorem Overlong.not_tells {source : List Char} (h : Overlong source) (p : Position) :
    ¬p.place.Tells source := by
  obtain ⟨hfull, hbytes, hends⟩ := h
  rintro ⟨hline, lines, last, hsource, hlines, -, hcolumn⟩
  have hlength : source.length + 1 = UInt32.size := by
    rw [← byteLength_eq_length_iff.mpr hbytes, hfull]
    rfl
  obtain hfree | hfeeds := hends
  · have hempty : lines = [] := by
      by_contra hne
      have hlast := hlines _ (List.getLast?_eq_getLast_of_ne_nil hne)
      rw [hsource] at hfree
      exact hfree (List.mem_append_left _ (hlast ▸ List.getLast_mem hne))
    subst hempty
    rw [hsource, List.nil_append, ← hcolumn] at hlength
    exact absurd hlength (Nat.ne_of_lt p.place_fits.2)
  · rw [List.count_eq_length.mpr fun c hc => (hfeeds c hc).symm, hlength] at hline
    exact absurd hline (Nat.ne_of_lt p.place_fits.1)

/-- A position tells the lines before a place and the characters before it on its line, but neither
number goes beyond its word. So positions increase with the places in a text, and a text moves on by
the lines that are put before it, unless the last of its lines or columns is one too many. -/
theorem lined_of_positions (source : List Char) :
    (∀ before rest, source = before ++ rest → ∃ p : Place, p.Tells before ∧
      Position.ofOffset source (byteLength before) = p.position) ∧
    (∀ offset, byteLength source ≤ offset →
      Position.ofOffset source offset = Position.ofOffset source (byteLength source)) ∧
    (byteLength source < UInt32.size → (Lined source ↔ ¬Overlong source)) := by
  refine ⟨?_, fun _ => Position.ofOffset_beyond, ?_⟩
  · intro before rest h
    refine ⟨.after before, Place.tells_after before, ?_⟩
    rw [Position.ofOffset_eq, h, Place.ofOffset_append]
  · intro h
    constructor
    · intro hlined hlong
      exact hlong.not_tells _ (hlined.tells source [] (List.append_nil source).symm)
    · intro hlong
      exact lined_of_fits (Place.ofOffset_fits h hlong)

/-- Characters of two bytes before a line feed and after it. -/
theorem lined_of_positions_multibyte :
    let source := "é\néa".toList
    byteLength source < UInt32.size ∧ Lined source ∧ Position.ofOffset source 5 = ⟨2, 2⟩ := by
  intro source
  have hsize : byteLength source < UInt32.size := by decide
  have hlong : ¬Overlong source := fun h => absurd h.1 (by decide)
  exact ⟨hsize, ((lined_of_positions source).2.2 hsize).mpr hlong, by decide⟩

theorem Position.ofOffset_replicate {c : Char} (hc : c.utf8Size = 1) (hfeed : c ≠ '\n') {n m : Nat}
    (h : m ≤ n) : ofOffset (List.replicate n c) m = ⟨1, .ofNatClamp (m + 1)⟩ := by
  have hsource : List.replicate n c = List.replicate m c ++ List.replicate (n - m) c := by
    rw [List.replicate_append_replicate, Nat.add_sub_cancel' h]
  have hcount : (List.replicate m c).count '\n' = 0 :=
    List.count_eq_zero_of_not_mem fun hmem => hfeed (List.eq_of_mem_replicate hmem).symm
  have hline : (List.replicate m c).reverse.takeWhile (· != '\n') = List.replicate m c := by
    rw [List.reverse_replicate, List.takeWhile_replicate_eq_filter]
    simp [hfeed]
  have hplace := Place.ofOffset_append (List.replicate m c) (List.replicate (n - m) c)
  rw [byteLength_replicate hc, ← hsource, Place.after, hcount, hline,
    List.length_replicate] at hplace
  rw [ofOffset_eq, hplace]
  rfl

/-- Before and after the last of so many characters the column is the same, since there is none that
is larger. -/
theorem not_lined_replicate :
    let source := List.replicate (UInt32.size - 1) 'x'
    byteLength source < UInt32.size ∧
      IsBoundary source (UInt32.size - 2) ∧ IsBoundary source (UInt32.size - 1) ∧
      Position.ofOffset source (UInt32.size - 2) = Position.ofOffset source (UInt32.size - 1) ∧
      ¬Lined source := by
  intro source
  have hx : 'x'.utf8Size = 1 := rfl
  have hboundary (m : Nat) (h : m ≤ UInt32.size - 1) : IsBoundary source m := by
    refine ⟨List.replicate m 'x', List.replicate (UInt32.size - 1 - m) 'x', ?_,
      byteLength_replicate hx m⟩
    rw [List.replicate_append_replicate, Nat.add_sub_cancel' h]
  have hposition (m : Nat) (h : m ≤ UInt32.size - 1) :
      Position.ofOffset source m = ⟨1, .ofNatClamp (m + 1)⟩ :=
    Position.ofOffset_replicate hx (by decide) h
  have hlast := hboundary (UInt32.size - 2) (by decide)
  have hend := hboundary (UInt32.size - 1) (by decide)
  have hsame :
      Position.ofOffset source (UInt32.size - 2) = Position.ofOffset source (UInt32.size - 1) := by
    rw [hposition _ (by decide), hposition _ (by decide)]
    rfl
  refine ⟨?_, hlast, hend, hsame, fun hlined => ?_⟩
  · rw [byteLength_replicate hx]
    decide
  · exact absurd (hlined.distinct _ _ hlast hend hsame) (by decide)

end TemplateEngine.Text

import TemplateEngine.Proofs.Listing.Printed
import TemplateEngine.Value.Text

/-! The text of a value in a listing tells the value, if no float, object or template is part of
it. -/
namespace TemplateEngine

namespace Value

mutual

/-- Built from null, booleans, whole numbers, strings, lists and maps. -/
def Plain : Value → Prop
  | .null | .bool _ | .int _ | .str _ => True
  | .list items => PlainItems items
  | .map entries => PlainEntries entries
  | .float _ | .object _ | .template _ => False

def PlainItems : List Value → Prop
  | [] => True
  | v :: rest => v.Plain ∧ PlainItems rest

def PlainEntries : List (String × Value) → Prop
  | [] => True
  | (_, v) :: rest => v.Plain ∧ PlainEntries rest

end

mutual

def decPlain : (v : Value) → Decidable v.Plain
  | .null | .bool _ | .int _ | .str _ => .isTrue trivial
  | .list items => decPlainItems items
  | .map entries => decPlainEntries entries
  | .float _ | .object _ | .template _ => .isFalse id

def decPlainItems : (items : List Value) → Decidable (PlainItems items)
  | [] => .isTrue trivial
  | v :: rest => @instDecidableAnd _ _ (decPlain v) (decPlainItems rest)

def decPlainEntries : (entries : List (String × Value)) → Decidable (PlainEntries entries)
  | [] => .isTrue trivial
  | (_, v) :: rest => @instDecidableAnd _ _ (decPlain v) (decPlainEntries rest)

end

instance : DecidablePred Plain :=
  decPlain

theorem plainItems_iff {items : List Value} : PlainItems items ↔ ∀ v ∈ items, v.Plain := by
  induction items with
  | nil => simp [PlainItems]
  | cons v rest ih => simp [PlainItems, ih]

theorem plainEntries_iff {entries : List (String × Value)} :
    PlainEntries entries ↔ ∀ e ∈ entries, e.2.Plain := by
  induction entries with
  | nil => simp [PlainEntries]
  | cons e rest ih =>
    obtain ⟨k, v⟩ := e
    simp [PlainEntries, ih]

theorem listingItems_eq_map (items : List Value) : listingItems items = items.map listing := by
  induction items with
  | nil => rfl
  | cons v rest ih => simp [listingItems, ih]

def entryListing (e : String × Value) : String :=
  Text.quote e.1 ++ ": " ++ e.2.listing

theorem listingEntries_eq_map (entries : List (String × Value)) :
    listingEntries entries = entries.map entryListing := by
  induction entries with
  | nil => rfl
  | cons e rest ih =>
    obtain ⟨k, v⟩ := e
    simp [listingEntries, entryListing, ih]

theorem toList_listing_list (items : List Value) : (Value.list items).listing.toList =
    "List([".toList ++ (Text.commas (items.map fun v => v.listing.toList) ++ [']', ')']) := by
  simp [listing, listingItems_eq_map, ← Text.toList_commas]

theorem toList_listing_map (entries : List (String × Value)) : (Value.map entries).listing.toList =
    "Map(\x7b".toList ++
      (Text.commas (entries.map fun e => (entryListing e).toList) ++ ['\x7d', ')']) := by
  simp [listing, listingEntries_eq_map, ← Text.toList_commas]

/-- A listed value begins with the name of its type. -/
def firsts : List Char :=
  ['N', 'B', 'I', 'F', 'S', 'L', 'M', 'O', 'T']

theorem listing_cons (v : Value) : ∃ c rest, c ∈ firsts ∧ v.listing.toList = c :: rest := by
  cases v with
  | list items => simp [toList_listing_list, firsts]
  | map entries => simp [toList_listing_map, firsts]
  | _ => simp [listing, firsts]

theorem listing_ne {c : Char} (hc : c ∉ firsts) (v : Value) (r s : List Char) :
    v.listing.toList ++ r ≠ c :: s := by
  obtain ⟨d, rest, hd, heq⟩ := v.listing_cons
  rw [heq]
  rintro h
  exact hc ((List.cons.inj h).1 ▸ hd)

theorem boolText_append_inj {a b : Bool} {r s : List Char}
    (h : (boolText a).toList ++ r = (boolText b).toList ++ s) : a = b ∧ r = s := by
  cases a <;> cases b <;> simp_all [boolText]

theorem entryListing_ne (e : String × Value) (r s : List Char) :
    (entryListing e).toList ++ r ≠ '\x7d' :: s := by
  simp [entryListing, Text.quote, Text.quoteChars]

theorem sizeOf_lt_list {items : List Value} {v : Value} (h : v ∈ items) :
    sizeOf v < sizeOf (Value.list items) := by
  have := List.sizeOf_lt_of_mem h
  simp only [list.sizeOf_spec]
  omega

theorem sizeOf_lt_map {entries : List (String × Value)} {e : String × Value} (h : e ∈ entries) :
    sizeOf e.2 < sizeOf (Value.map entries) := by
  have := List.sizeOf_lt_of_mem h
  obtain ⟨k, v⟩ := e
  simp only [map.sizeOf_spec, Prod.mk.sizeOf_spec] at this ⊢
  omega

/-- The text of a value tells the value and where it ends. -/
theorem listing_append_inj {v w : Value} (hv : v.Plain) (hw : w.Plain) {r s : List Char}
    (h : v.listing.toList ++ r = w.listing.toList ++ s) : v = w ∧ r = s := by
  have hclose (rest : List Char) : Text.Stops (')' :: rest) := Text.stops_cons (by decide) rest
  induction hsize : sizeOf v using Nat.strongRecOn generalizing v w r s with
  | _ size ih =>
  subst hsize
  cases v with
  | null =>
    cases w with
    | null => exact ⟨rfl, List.append_cancel_left h⟩
    | _ => simp [listing] at h
  | bool a =>
    cases w with
    | bool b =>
      simp only [listing, String.toList_append, List.append_assoc] at h
      obtain ⟨rfl, hrest⟩ := boolText_append_inj (List.append_cancel_left h)
      exact ⟨rfl, List.append_cancel_left hrest⟩
    | _ => simp [listing] at h
  | int m =>
    cases w with
    | int n =>
      simp only [listing, String.toList_append, List.append_assoc] at h
      obtain ⟨rfl, hrest⟩ :=
        Text.intText_append_inj (hclose r) (hclose s) (List.append_cancel_left h)
      exact ⟨rfl, (List.cons.inj hrest).2⟩
    | _ => simp [listing] at h
  | str a =>
    cases w with
    | str b =>
      simp only [listing, String.toList_append, List.append_assoc] at h
      obtain ⟨rfl, hrest⟩ := Text.quote_append_inj (List.append_cancel_left h)
      exact ⟨rfl, List.append_cancel_left hrest⟩
    | _ => simp [listing] at h
  | list as =>
    cases w with
    | list bs =>
      rw [toList_listing_list, toList_listing_list, List.append_assoc, List.append_assoc,
        List.append_assoc, List.append_assoc] at h
      obtain ⟨rfl, hrest⟩ := Text.commas_append_inj (fun _ => True) (fun _ => trivial)
        (fun _ => trivial) (by decide) (fun a _ => listing_ne (by decide) a)
        (fun b _ => listing_ne (by decide) b)
        (fun a ha b hb r s _ _ h =>
          ih _ (sizeOf_lt_list ha) (plainItems_iff.mp hv a ha) (plainItems_iff.mp hw b hb) h rfl)
        (List.append_cancel_left h)
      exact ⟨rfl, (List.cons.inj hrest).2⟩
    | _ => simp [listing] at h
  | map as =>
    cases w with
    | map bs =>
      rw [toList_listing_map, toList_listing_map, List.append_assoc, List.append_assoc,
        List.append_assoc, List.append_assoc] at h
      obtain ⟨rfl, hrest⟩ := Text.commas_append_inj (fun _ => True) (fun _ => trivial)
        (fun _ => trivial) (by decide) (fun a _ => entryListing_ne a)
        (fun b _ => entryListing_ne b)
        (fun a ha b hb r s _ _ h => by
          simp only [entryListing, String.toList_append, List.append_assoc] at h
          obtain ⟨hkey, hrest⟩ := Text.quote_append_inj h
          obtain ⟨hvalue, hrs⟩ := ih _ (sizeOf_lt_map ha) (plainEntries_iff.mp hv a ha)
            (plainEntries_iff.mp hw b hb) (List.append_cancel_left hrest) rfl
          exact ⟨Prod.ext hkey hvalue, hrs⟩)
        (List.append_cancel_left h)
      exact ⟨rfl, (List.cons.inj hrest).2⟩
    | _ => simp [listing] at h
  | float _ | object _ | template _ => exact hv.elim

/-- A value takes one line. -/
theorem solid_listing {v : Value} (hv : v.Plain) : Text.Solid v.listing.toList := by
  have hparens {a : List Char} (h : '\n' ∉ a) : Text.Solid (a ++ [')']) :=
    Text.solid_concat h (by decide)
  induction hsize : sizeOf v using Nat.strongRecOn generalizing v with
  | _ size ih =>
  subst hsize
  cases v with
  | null => exact Text.solid_concat (a := ['N', 'u', 'l']) (by decide) (by decide)
  | bool b =>
    cases b with
    | false => exact hparens (a := "Bool(false".toList) (by decide)
    | true => exact hparens (a := "Bool(true".toList) (by decide)
  | int n =>
    rw [listing, String.toList_append, String.toList_append]
    exact hparens (by simp [Text.line_intText])
  | str s =>
    rw [listing, String.toList_append, String.toList_append]
    exact hparens (by simp [(Text.solid_quote s).line])
  | list items =>
    have hitems : '\n' ∉ Text.commas (items.map fun v => v.listing.toList) := by
      refine Text.line_commas fun text htext => ?_
      obtain ⟨v, hmem, rfl⟩ := List.mem_map.mp htext
      exact (ih _ (sizeOf_lt_list hmem) (plainItems_iff.mp hv v hmem) rfl).line
    rw [toList_listing_list, ← List.append_assoc, List.append_cons]
    exact hparens (by simp [hitems])
  | map entries =>
    have hentries : '\n' ∉ Text.commas (entries.map fun e => (entryListing e).toList) := by
      refine Text.line_commas fun text htext => ?_
      obtain ⟨e, hmem, rfl⟩ := List.mem_map.mp htext
      have hvalue := ih _ (sizeOf_lt_map hmem) (plainEntries_iff.mp hv e hmem) rfl
      simp [entryListing, (Text.solid_quote e.1).line, hvalue.line]
    rw [toList_listing_map, ← List.append_assoc, List.append_cons]
    exact hparens (by simp [hentries])
  | float _ | object _ | template _ => exact hv.elim

end Value

end TemplateEngine

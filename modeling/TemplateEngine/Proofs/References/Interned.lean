import TemplateEngine.Proofs.References.Program

/-! Slots with an index. A slot map is one list of names, in which a name is searched for. It may as
well keep a table of the slots next to the names; the two then have to be kept consistent, and give
the same answers. A slot is a word there, and the last word stands for all slots that would come
after it. -/
namespace TemplateEngine

namespace SlotMap

variable {m : SlotMap} {name : String}

/-- Declares names one after another, and gives the slot of each. -/
def declareAll (m : SlotMap) : List String → SlotMap × List SlotId
  | [] => (m, [])
  | name :: rest =>
    let (m, slot) := m.declare name
    let (m, slots) := m.declareAll rest
    (m, slot :: slots)

theorem declare_of_lookup? {slot : SlotId} (h : m.lookup? name = some slot) :
    m.declare name = (m, slot) := by
  unfold declare
  split
  · next slot' hslot => rw [Option.some.inj (hslot.symm.trans h)]
  · next hnone => cases hnone.symm.trans h

theorem slot_declare_of_new (h : m.lookup? name = none) : (m.declare name).2 = m.size := by
  unfold declare
  split
  · next slot hslot => cases h.symm.trans hslot
  · rfl

theorem lookup?_declare_of_new (h : m.lookup? name = none) (name' : String) :
    (m.declare name).1.lookup? name' = if name = name' then some m.size else m.lookup? name' := by
  split
  · next heq => rw [← heq, lookup?_declare, slot_declare_of_new h]
  · next hne =>
    rw [lookup?, names_declare, if_neg (lookup?_eq_none_iff.mp h), List.idxOf?,
      List.findIdx?_append]
    simp [lookup?, List.idxOf?, hne]

end SlotMap

/-- The names in the order of their slots, and next to them the slots by name. -/
structure IndexedSlotMap where
  names : Array String := #[]
  index : Std.HashMap String UInt32 := {}

namespace IndexedSlotMap

def lookup? (x : IndexedSlotMap) (name : String) : Option UInt32 :=
  x.index[name]?

def nameOf? (x : IndexedSlotMap) (slot : UInt32) : Option String :=
  x.names[slot.toNat]?

/-- The slot of `name`. One that has none yet is put after all others, and into the table. -/
def intern (x : IndexedSlotMap) (name : String) : IndexedSlotMap × UInt32 :=
  match x.lookup? name with
  | some slot => (x, slot)
  | none =>
    let slot := .ofNatClamp x.names.size
    ({ names := x.names.push name, index := x.index.insert name slot }, slot)

def internAll (x : IndexedSlotMap) : List String → IndexedSlotMap × List UInt32
  | [] => (x, [])
  | name :: rest =>
    let (x, slot) := x.intern name
    let (x, slots) := x.internAll rest
    (x, slot :: slots)

theorem intern_of_lookup? {x : IndexedSlotMap} {name : String} {slot : UInt32}
    (h : x.lookup? name = some slot) : x.intern name = (x, slot) := by
  rw [intern, h]

theorem intern_of_new {x : IndexedSlotMap} {name : String} (h : x.lookup? name = none) :
    x.intern name =
      ({ names := x.names.push name
         index := x.index.insert name (.ofNatClamp x.names.size) },
        .ofNatClamp x.names.size) := by
  rw [intern, h]

/-- The names are those of the slot map, and the table has their slots. -/
structure Agrees (x : IndexedSlotMap) (m : SlotMap) : Prop where
  names : x.names.toList = m.names
  lookup? (name : String) : x.lookup? name = (m.lookup? name).map .ofNatClamp

variable {x : IndexedSlotMap} {m : SlotMap}

namespace Agrees

theorem size (h : x.Agrees m) : x.names.size = m.size := by
  rw [← Array.length_toList, h.names, SlotMap.size]

theorem nameOf? (h : x.Agrees m) (slot : UInt32) : x.nameOf? slot = m.nameOf? slot.toNat := by
  rw [IndexedSlotMap.nameOf?, SlotMap.nameOf?, ← Array.getElem?_toList, h.names]

/-- As long as there are words for all slots, they are the slots. -/
theorem lookup?_eq_some_iff (h : x.Agrees m) (hsize : m.size ≤ UInt32.size) {name : String}
    {slot : UInt32} : x.lookup? name = some slot ↔ m.lookup? name = some slot.toNat := by
  rw [h.lookup?, Option.map_eq_some_iff]
  constructor
  · rintro ⟨k, hk, rfl⟩
    have hlt := Nat.lt_of_lt_of_le (SlotMap.lt_of_lookup? hk) hsize
    rw [hk, UInt32.toNat_ofNatClamp_of_lt hlt]
  · intro hslot
    refine ⟨slot.toNat, hslot, UInt32.toNat_inj.mp ?_⟩
    exact UInt32.toNat_ofNatClamp_of_lt slot.toNat_lt_size

theorem intern (h : x.Agrees m) (name : String) :
    (x.intern name).1.Agrees (m.declare name).1 ∧
      (x.intern name).2 = .ofNatClamp (m.declare name).2 := by
  have hname := h.lookup? name
  cases hslot : m.lookup? name with
  | some slot =>
    rw [hslot] at hname
    rw [intern_of_lookup? hname, SlotMap.declare_of_lookup? hslot]
    exact ⟨h, rfl⟩
  | none =>
    rw [hslot] at hname
    rw [intern_of_new hname, SlotMap.slot_declare_of_new hslot, ← h.size]
    refine ⟨⟨?_, fun name' => ?_⟩, rfl⟩
    · rw [Array.toList_push, h.names, SlotMap.names_declare,
        if_neg (SlotMap.lookup?_eq_none_iff.mp hslot)]
    · rw [SlotMap.lookup?_declare_of_new hslot, ← h.size, IndexedSlotMap.lookup?,
        Std.HashMap.getElem?_insert]
      simp only [beq_iff_eq]
      split
      · rfl
      · exact h.lookup? name'

theorem internAll (h : x.Agrees m) (names : List String) :
    (x.internAll names).1.Agrees (m.declareAll names).1 ∧
      (x.internAll names).2 = (m.declareAll names).2.map .ofNatClamp := by
  induction names generalizing x m with
  | nil => exact ⟨h, rfl⟩
  | cons name rest ih =>
    obtain ⟨hagrees, hslot⟩ := h.intern name
    obtain ⟨hagrees', hslots⟩ := ih hagrees
    refine ⟨hagrees', ?_⟩
    rw [SlotMap.declareAll, List.map_cons, ← hslot, ← hslots]
    rfl

end Agrees

theorem agrees_empty : ({} : IndexedSlotMap).Agrees .empty where
  names := rfl
  lookup? _ := Std.HashMap.getElem?_empty

/-- After any names, however often repeated, the names with their table give the same slots as the
names alone, and find the same names for them. -/
theorem internAll_agrees (names : List String) :
    let (x, slots) := ({} : IndexedSlotMap).internAll names
    let (m, slots') := SlotMap.empty.declareAll names
    slots = slots'.map .ofNatClamp ∧ x.names.size = m.size ∧
      (∀ name, x.lookup? name = (m.lookup? name).map .ofNatClamp) ∧
      (∀ slot, x.nameOf? slot = m.nameOf? slot.toNat) ∧
      (m.size ≤ UInt32.size →
        ∀ name slot, x.lookup? name = some slot ↔ m.lookup? name = some slot.toNat) := by
  obtain ⟨hagrees, hslots⟩ := agrees_empty.internAll names
  exact ⟨hslots, hagrees.size, hagrees.lookup?, hagrees.nameOf?,
    fun hsize name slot => hagrees.lookup?_eq_some_iff hsize⟩

end IndexedSlotMap

end TemplateEngine

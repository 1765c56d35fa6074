/-! The variable slots of a template. Parameters come first, in the order they are declared, and a
name has one slot however often it is declared. -/
namespace TemplateEngine

abbrev SlotId := Nat

/-- The names of the slots, in the order of their allocation. -/
structure SlotMap where
  names : List String := []
  nodup : names.Nodup := by simp

namespace SlotMap

def empty : SlotMap := {}

def size (m : SlotMap) : Nat :=
  m.names.length

def lookup? (m : SlotMap) (name : String) : Option SlotId :=
  m.names.idxOf? name

def nameOf? (m : SlotMap) (slot : SlotId) : Option String :=
  m.names[slot]?

theorem lookup?_eq_none_iff {m : SlotMap} {name : String} :
    m.lookup? name = none ↔ name ∉ m.names := by
  simp [lookup?, List.idxOf?_eq_none_iff]

/-- The slot of `name`, a new one at the end if it has none yet. -/
def declare (m : SlotMap) (name : String) : SlotMap × SlotId :=
  match h : m.lookup? name with
  | some slot => (m, slot)
  | none =>
    let names := m.names ++ [name]
    have nodup : names.Nodup := by
      have := lookup?_eq_none_iff.mp h
      simp only [names, List.nodup_append, m.nodup, true_and]
      grind
    ({ names, nodup }, m.size)

end SlotMap

end TemplateEngine

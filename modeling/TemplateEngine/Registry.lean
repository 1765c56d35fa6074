import TemplateEngine.Program.Template

/-! Templates by name, in the order in which the names were first registered. -/
namespace TemplateEngine

structure Registry where
  entries : List (String × Template) := []

namespace Registry

def names (r : Registry) : List String :=
  r.entries.map (·.1)

def size (r : Registry) : Nat :=
  r.entries.length

def isEmpty (r : Registry) : Bool :=
  r.entries.isEmpty

def resolve? (r : Registry) (name : String) : Option Template :=
  r.entries.lookup name

theorem mem_of_resolve? {r : Registry} {name : String} {t : Template}
    (h : r.resolve? name = some t) : (name, t) ∈ r.entries := by
  obtain ⟨before, after, h, -⟩ := List.lookup_eq_some_iff.mp h
  rw [h]
  exact List.mem_append_right _ List.mem_cons_self

def contains (r : Registry) (name : String) : Bool :=
  (r.resolve? name).isSome

/-- A name that is registered again keeps its place. -/
def register (r : Registry) (name : String) (t : Template) : Registry :=
  ⟨go r.entries⟩
where
  go : List (String × Template) → List (String × Template)
    | [] => [(name, t)]
    | (n, old) :: rest => if n = name then (n, t) :: rest else (n, old) :: go rest

end Registry

end TemplateEngine

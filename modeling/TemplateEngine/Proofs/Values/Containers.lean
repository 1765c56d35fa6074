import TemplateEngine.Proofs.Lockstep.Basic
import TemplateEngine.Proofs.Values.Maps

/-! The ways into a container agree. A loop goes through a map as it goes through the list of its
values. -/
namespace TemplateEngine

/-- The path that an operand is, if it is one. No other operand can have a method called on it. -/
def Operand.path? : Operand → Option Path
  | .constant v => some ⟨.constant v, []⟩
  | .slot id => some ⟨.slot id, []⟩
  | .path p => some p
  | .expr _ => none

/-- The values of what a path leads to. -/
def Path.values (p : Path) : Path :=
  { p with accesses := p.accesses ++ [.call "values" []] }

/-- A loop through a map and a loop through the list of its values do the same, whatever the body is
and whatever comes after it. -/
structure LoopAccess {σ : Type} [Sink σ] (f : Frame) (r : RunState σ) (m : Value) : Prop where
  values : ∀ (o : Operand) (p : Path), o.path? = some p →
    (f.scope r.context).resolve o = .ok m → ∃ values,
      (f.scope r.context).access (f.scope r.context).expr m (.call "values" []) = .ok values ∧
        (f.scope r.context).resolve (.path p.values) = .ok values
  walk : ∀ (header : Loop) (container : Operand) (values : Value),
    (f.scope r.context).resolve header.container = .ok m →
    (f.scope r.context).access (f.scope r.context).expr m (.call "values" []) = .ok values →
    (f.scope r.context).resolve container = .ok values →
    ∀ (enter : Enter σ) (index stop : Nat) (rest : List Instr),
      (f.walk enter index (.loop header stop :: rest)).run.run r =
        (f.walk enter index (.loop { header with container } stop :: rest)).run.run r

namespace Scope

variable {s : Scope}

theorem resolve_of_path? {o : Operand} {p : Path} (h : o.path? = some p) :
    s.resolve o = s.resolve (.path p) := by
  cases o with
  | expr id => cases h
  | _ =>
    cases h
    rfl

theorem resolve_values {p : Path} {v w : Value} (hv : s.resolve (.path p) = .ok v)
    (hw : s.access s.expr v (.call "values" []) = .ok w) : s.resolve (.path p.values) = .ok w := by
  have hpassed : p.accesses.foldlM (s.access s.expr) (s.root p.root) = .ok v := by
    rw [resolve, path] at hv
    split at hv
    · next hpassed =>
      cases hv
      exact hpassed
    · cases hv
  have hvalues : p.values.accesses.foldlM (s.access s.expr) (s.root p.values.root) = .ok w := by
    rw [Path.values, List.foldlM_append, hpassed]
    change (s.access s.expr v (.call "values" []) >>= pure) = _
    rw [hw]
    rfl
  rw [resolve, path, hvalues]

end Scope

/-- What a run asks for, and does if it is refused, depends on the answer alone. -/
theorem Run.attempt_congr {σ α : Type} {report : Reporter σ} {default : α}
    {ask ask' : Context → Except DataError α} {r : RunState σ}
    (h : ask r.context = ask' r.context) :
    (attempt report default ask).run.run r = (attempt report default ask').run.run r := by
  have hget (k : RunState σ → Run σ α) : (get >>= k).run.run r = (k r).run.run r := rfl
  rw [attempt, attempt, hget, hget, h]

namespace Frame

variable {σ : Type}

/-- The passes of a loop look at the header for its slots only. -/
theorem passes_container (header : Loop) (container : Operand) (body : Run σ Unit)
    (xs : List Value) : passes { header with container } body xs = passes header body xs := by
  induction xs with
  | nil => rfl
  | cons v rest ih => simp only [passes, ih]

variable [Sink σ] (f : Frame)

theorem walk_loop_of_items (enter : Enter σ) (index stop : Nat) (header : Loop)
    (container : Operand) (rest : List Instr) {r : RunState σ}
    (h : f.items header.container r.context = f.items container r.context) :
    (f.walk enter index (.loop header stop :: rest)).run.run r =
      (f.walk enter index (.loop { header with container } stop :: rest)).run.run r := by
  have hitems : (f.elements header.container : Run σ (List Value)).run.run r =
      (f.elements container).run.run r := by
    rw [elements_eq, elements_eq]
    exact Run.attempt_congr h
  rw [walk_loop, walk_loop, Run.run_bind, Run.run_bind, hitems]
  simp only [passes_container]

theorem loopAccess (r : RunState σ) (entries : List (String × Value)) :
    LoopAccess f r (.map entries) where
  values o p hp ho := by
    rw [Scope.resolve_of_path? hp] at ho
    exact ⟨_, rfl, Scope.resolve_values ho rfl⟩
  walk header container values hmap hvalues hcontainer enter index stop rest := by
    cases hvalues
    refine f.walk_loop_of_items enter index stop header container rest ?_
    rw [items, items, hmap, hcontainer]

end Frame

/-- An index reaches into a list from the start or from the end, or is refused, and the methods of a
list and its text go by the indices. The entries of a map are had by their keys in either way of
writing an access, its methods list them in increasing order of the keys, and a loop through the map
is one through the list of its values. A map is made of any entries, and those that are in order
already are its entries. -/
theorem containers_agree :
    (∀ (s : Scope) (eval : ExprId → Except DataError Value),
      (∀ xs, ListAccess s eval xs) ∧ ∀ entries, MapAccess s eval (Value.ofEntries entries)) ∧
    (∀ {σ : Type} [Sink σ] (f : Frame) (r : RunState σ) (entries : List (String × Value)),
      LoopAccess f r (Value.ofEntries entries)) ∧
    ∀ entries, Value.Ordered entries → Value.ofEntries entries = .map entries := by
  refine ⟨fun s eval => ⟨s.listAccess, fun entries => ?_⟩, fun f r entries => ?_, ?_⟩
  · obtain ⟨ordered, heq, hordered⟩ := Value.exists_ofEntries entries
    rw [heq]
    exact Scope.mapAccess hordered
  · exact f.loopAccess r _
  · exact fun entries => Value.ofEntries_of_ordered

/-- The least index is out of range; the second element from the end is the first of two; and a loop
through a map that a slot holds is one through its values. -/
theorem containers_agree_small :
    let m := Value.ofEntries [("b", .int 2), ("a", .int 1)]
    let t : Template := {
      name := "t", paramCount := 1, instrs := [], arena := {}
      slots := { names := ["m", "x", "x_next"] }
      callSites := 0, registry := none, operations := none, id := 0 }
    let c : Context := { Context.fresh t with values := [m, .null, .null] }
    let f : Frame := ⟨{}, {}, t⟩
    let xs : List Value := [.int 1, .str "b"]
    let eval : ExprId → Except DataError Value := fun _ => .ok (.str "b")
    let access := (f.scope c).access eval
    access (.list xs) (.index Int64.minValue) = .error (.indexOutOfRange Int64.minValue 2) ∧
      access (.list xs) (.index (-2)) = .ok (.int 1) ∧
      access (.list xs) (.call "last" []) = access (.list xs) (.index (-1)) ∧
      access m (.field "b") = .ok (.int 2) ∧
      ∀ (enter : Enter TextSink) (rest : List Instr),
        (f.walk enter 0 (.loop ⟨.slot 0, 1, 2⟩ 3 :: rest)).run.run { context := c, sink := {} } =
          (f.walk enter 0 (.loop ⟨.path ⟨.slot 0, [.call "values" []]⟩, 1, 2⟩ 3 :: rest)).run.run
            { context := c, sink := {} } := by
  intro m t c f xs eval access
  obtain ⟨haccess, hloop, -⟩ := containers_agree
  obtain ⟨hlist, hmap⟩ := haccess (f.scope c) eval
  refine ⟨(hlist xs).outside _ (.inl (by decide)), (hlist xs).fromEnd (-2) 0 (by decide) rfl,
    (hlist xs).last (by simp [xs]), ((hmap _).field "b" (.int 2)).mpr rfl, fun enter rest => ?_⟩
  let r : RunState TextSink := { context := c, sink := {} }
  have hm : (f.scope r.context).resolve (.slot 0) = .ok m := rfl
  obtain ⟨values, hvalues, hresolve⟩ := (hloop f r _).values (.slot 0) _ rfl hm
  exact (hloop f r _).walk ⟨.slot 0, 1, 2⟩ _ values hm hvalues hresolve enter 0 3 rest

end TemplateEngine

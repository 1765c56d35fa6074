import TemplateEngine.Proofs.References.Emitted
import TemplateEngine.Proofs.Termination.Produced

/-! The operations that a compiled program invokes, with the arguments that it has for them. -/
namespace TemplateEngine

theorem OperationTable.name_of_lookup? {table : OperationTable} {name : String} {op : Operation}
    (h : table.lookup? name = some op) : op.name = name := by
  have hname := List.find?_some h
  exact beq_iff_eq.mp hname

/-- An operation that is invoked is one of the table, and it is given an argument if it takes
one. -/
def Action.InvokesFrom (table : Option OperationTable) (a : Action) : Prop :=
  ∀ op arg, a = .exec op arg → (∃ t, table = some t ∧ t.lookup? op.name = some op) ∧
    (arg.isSome ↔ op.arity = .unary)

theorem Tables.invokesFrom_notes (table : Option OperationTable) (unknown : List String) :
    ∀ a ∈ notes unknown, a.InvokesFrom table := by
  rintro _ ha op arg rfl
  obtain ⟨_, -, heq⟩ := List.mem_map.mp ha
  cases heq

/-- Notes and one action. -/
theorem Tables.invokesFrom_append {table : Option OperationTable} (unknown : List String)
    {a : Action} (ha : a.InvokesFrom table) : ∀ a' ∈ notes unknown ++ [a], a'.InvokesFrom table :=
  List.forall_mem_append.mpr
    ⟨invokesFrom_notes table unknown, List.forall_mem_singleton.mpr ha⟩

/-- A blank argument is none, and one with unknown names is still an argument. -/
theorem Tables.invokesFrom_exec {o : CompileOptions} {t t' : Tables} {op : List Char}
    {arg : Option (List Char)} {actions : List Action} (h : t.exec o op arg = .ok (actions, t')) :
    ∀ a ∈ actions, a.InvokesFrom o.operations := by
  unfold exec at h
  dsimp only at h
  split at h
  · next table htable =>
    split at h
    · next op' hop =>
      have hlisted : ∃ t, o.operations = some t ∧ t.lookup? op'.name = some op' := by
        refine ⟨table, htable, ?_⟩
        rw [OperationTable.name_of_lookup? hop]
        exact hop
      split at h
      · cases h
      · cases h
      · next harity _ =>
        cases h
        rw [List.forall_mem_singleton]
        rintro _ _ ⟨⟩
        exact ⟨hlisted, by simp [harity]⟩
      · next harity _ =>
        obtain ⟨⟨source, unknown, t₁⟩, -, h⟩ := bind_eq_ok h
        cases h
        refine invokesFrom_append unknown ?_
        rintro _ _ ⟨⟩
        exact ⟨hlisted, by simp [harity]⟩
    · cases h
  · cases h

theorem CompileOptions.keeps_operations (o : CompileOptions) :
    o.Keeps (fun _ => True) (Action.InvokesFrom o.operations) where
  literal text := nofun
  headerOperand _ _ := trivial
  loopHeader _ _ := trivial
  write _ h := by
    obtain ⟨⟨source, unknown, t₁⟩, -, h⟩ := bind_eq_ok h
    cases h
    refine ⟨trivial, ?_⟩
    split
    · rw [List.forall_mem_singleton]
      nofun
    · exact Tables.invokesFrom_notes _ _
  set _ h := by
    obtain ⟨⟨value, unknown, t₁⟩, -, h⟩ := bind_eq_ok h
    obtain ⟨⟨target, t₂⟩, -, h⟩ := bind_eq_ok h
    cases h
    exact ⟨trivial, Tables.invokesFrom_append _ nofun⟩
  call _ h := by
    obtain ⟨⟨callee, known⟩, -, h⟩ := bind_eq_ok h
    obtain ⟨⟨args', unknown, t₁⟩, -, h⟩ := bind_eq_ok h
    cases h
    exact ⟨trivial, Tables.invokesFrom_append _ nofun⟩
  exec _ h := ⟨trivial, Tables.invokesFrom_exec h⟩
  debug _ h := by
    unfold Tables.debug at h
    dsimp only at h
    split at h
    · cases h
      exact ⟨trivial, by rw [List.forall_mem_singleton]; nofun⟩
    · obtain ⟨⟨value, unknown, t₁⟩, -, h⟩ := bind_eq_ok h
      cases h
      exact ⟨trivial, Tables.invokesFrom_append _ nofun⟩

/-- What a program invokes is in the table that it was compiled with, and the table goes with the
program. -/
theorem invokesFrom_of_compile {name : String} {source : List Char} {o : CompileOptions}
    {p : Program} (h : compile name source o = .ok p) {op : Operation} {arg : Option Operand}
    (hexec : .action (.exec op arg) ∈ p.instrs) :
    p.operations = o.operations ∧ (∃ t, o.operations = some t ∧ t.lookup? op.name = some op) ∧
      (arg.isSome ↔ op.arity = .unary) := by
  refine ⟨?_, (holds_of_compile o.keeps_operations (fun _ _ => trivial) h).2 _ hexec op arg rfl⟩
  obtain ⟨d, -, rfl⟩ := compile_eq_ok_iff.mp h
  rfl

end TemplateEngine

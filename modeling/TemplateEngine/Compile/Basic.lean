import TemplateEngine.Compile.Emitter
import TemplateEngine.Program.Template

/-! Compiling a source text. The first fault in the order of the source is the answer. -/
namespace TemplateEngine

def Emitter.program (e : Emitter) (name : String) (o : CompileOptions) : Program where
  name
  paramCount := o.params.length
  instrs := e.instrs.toList
  arena := e.tables.arena
  slots := e.tables.slots
  callSites := e.tables.callSites
  registry := o.registry
  operations := o.operations

def compile (name : String) (source : List Char) (o : CompileOptions) :
    Except Malformed Program :=
  match Emitter.ofSource o source with
  | .error (f, span) => .error (.ofSpan name source span f)
  | .ok e => .ok (e.program name o)

/-- A step of reading that succeeds, and what came before it. -/
theorem bind_eq_ok {ε α β : Type} {x : Except ε α} {f : α → Except ε β} {b : β}
    (h : x >>= f = .ok b) : ∃ a, x = .ok a ∧ f a = .ok b := by
  cases x with
  | error e => cases h
  | ok a => exact ⟨a, rfl, h⟩

theorem map_eq_ok {ε α β : Type} {x : Except ε α} {f : α → β} {b : β}
    (h : x.map f = .ok b) : ∃ a, x = .ok a ∧ f a = b := by
  cases x with
  | error e => cases h
  | ok a => exact ⟨a, rfl, Except.ok.inj h⟩

theorem eq_ok_of_toOption {ε α : Type} {r : Except ε α} {a : α} (h : r.toOption = some a) :
    r = .ok a := by
  cases r with
  | error e => cases h
  | ok b =>
    cases h
    rfl

theorem name_of_compile {name : String} {source : List Char} {o : CompileOptions} {p : Program}
    (h : compile name source o = .ok p) : p.name = name := by
  unfold compile at h
  split at h
  · cases h
  · cases h; rfl

theorem exists_of_isOk {name : String} {source : List Char} {o : CompileOptions}
    (h : (compile name source o).isOk = true) : ∃ p, compile name source o = .ok p := by
  cases hp : compile name source o with
  | error e => rw [hp] at h; cases h
  | ok p => exact ⟨p, rfl⟩

end TemplateEngine

import TemplateEngine.Program.Instr

/-! Compiled templates. -/
namespace TemplateEngine

/-- Identifies a registry that templates look other templates up in at run time. -/
abbrev RegistryId := Nat

/-- What compiling a source yields: a flat list of instructions, the arena that their operands point
into and the slots that a context for it is laid out from. -/
structure Program where
  name : String
  paramCount : Nat
  instrs : List Instr
  arena : Arena
  slots : SlotMap
  callSites : Nat
  registry : Option RegistryId
  operations : Option OperationTable

def Program.params (p : Program) : List String :=
  p.slots.names.take p.paramCount

structure Template extends Program where
  id : TemplateId

def Template.ref (t : Template) : TemplateRef :=
  ⟨t.id, t.name⟩

end TemplateEngine

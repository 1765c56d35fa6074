import TemplateEngine.Host
import TemplateEngine.Program.Operand

/-! The instructions of a compiled template. Headers of blocks carry jumps relative to their own
place, so that no closing instruction is ever searched for. -/
namespace TemplateEngine

/-- Numbers the calls of one template, in the order of the program. -/
abbrev SiteId := Nat

/-- What a call invokes: a template known when the caller was compiled, one looked up by name when
the call is made, or the one that a slot then holds. -/
inductive Callee where
  | known (t : TemplateRef)
  | named (name : String)
  | held (slot : SlotId)

/-- An argument of a call. The callee's slot is resolved if the callee is known. -/
structure Argument where
  name : String
  slot : Option SlotId
  value : Operand

structure Call where
  callee : Callee
  args : List Argument
  site : SiteId

/-- The header of a loop. During each pass `entry` holds an element and `next` the one after it, or
null on the last pass. -/
structure Loop where
  container : Operand
  entry : SlotId
  next : SlotId

/-- An instruction that does not decide which instruction comes after it. -/
inductive Action where
  | literal (text : String)
  | variable (source : Operand)
  | set (target : SlotId) (value : Operand)
  | call (c : Call)
  | exec (op : Operation) (arg : Option Operand)
  | debug (value : Option Operand) (compare : Option String)

inductive Instr where
  | action (a : Action)
  /-- The header of a branch, of the first one of a chain or of another. `next` leads to what comes
  after the branch in its chain, `stop` to what comes after the chain. -/
  | branch (first : Bool) (cond : Operand) (next stop : Nat)
  | otherwise
  /-- The header of a loop; `stop` leads to what comes after its closing instruction. -/
  | loop (header : Loop) (stop : Nat)
  | endLoop

end TemplateEngine

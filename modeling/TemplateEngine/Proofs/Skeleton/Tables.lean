import TemplateEngine.Compile.Basic
import TemplateEngine.Proofs.Lockstep.Basic

/-! What is left of a program without its texts, its operands and its jumps. The skeleton of a
marker does not depend on the constants: they only decide which names are known, and so what the
operands are. -/
namespace TemplateEngine

/-- An instruction without its operands and its jumps. -/
inductive Skeleton where
  | set (target : SlotId)
  | call (callee : Callee) (args : List (String × Option SlotId)) (site : SiteId)
  | exec (op : Operation) (hasArg : Bool)
  | debug (hasValue : Bool) (compare : Option String)
  | branch (first : Bool)
  | otherwise
  | loop (entry next : SlotId)
  | endLoop

/-- What only writes has no skeleton. -/
def Action.skeleton? : Action → Option Skeleton
  | .literal _ | .variable _ => none
  | .set target _ => some (.set target)
  | .call c => some (.call c.callee (c.args.map fun a => (a.name, a.slot)) c.site)
  | .exec op arg => some (.exec op arg.isSome)
  | .debug value compare => some (.debug value.isSome compare)

def Instr.skeleton? : Instr → Option Skeleton
  | .action a => a.skeleton?
  | .branch first .. => some (.branch first)
  | .otherwise => some .otherwise
  | .loop header _ => some (.loop header.entry header.next)
  | .endLoop => some .endLoop

theorem skeleton_notes (unknown : List String) :
    (notes unknown).filterMap Action.skeleton? = [] := by
  simp [notes, Action.skeleton?]

/-- Notes have no skeleton, so that of a marker is the one of its last action. -/
theorem skeleton_append (unknown : List String) (a : Action) :
    (notes unknown ++ [a]).filterMap Action.skeleton? = a.skeleton?.toList := by
  rw [List.filterMap_append, skeleton_notes, List.nil_append]
  cases h : a.skeleton? <;> simp [h]

namespace Tables

/-- The same but for the arena. -/
structure Alike (t t' : Tables) : Prop where
  slots : t.slots = t'.slots
  callSites : t.callSites = t'.callSites

/-- The answers of two markers have the same skeleton. -/
structure SameMarker (r r' : List Action × Tables) : Prop where
  skeleton : r.1.filterMap Action.skeleton? = r'.1.filterMap Action.skeleton?
  tables : r.2.Alike r'.2

variable {o : CompileOptions} {t t' : Tables} (h : t.Alike t') (constants : List (String × Value))
include h

theorem Alike.operand (text : List Char) :
    Agree (fun r r' => r.2.2.Alike r'.2.2) (t.operand o text)
      (t'.operand { o with constants } text) := by
  unfold Tables.operand Lowering.ofText
  dsimp only
  cases Expr.parse (Text.trim text) with
  | error reason => exact .error _
  | ok e => exact .ok ⟨h.slots, h.callSites⟩

theorem Alike.headerOperand (text : List Char) :
    Agree (fun r r' => r.2.2.Alike r'.2.2) (t.headerOperand o text)
      (t'.headerOperand { o with constants } text) := by
  unfold Tables.headerOperand
  apply (h.operand constants text).bind
  intro r r' hr
  exact .ok hr

theorem Alike.declare (name : List Char) :
    Agree (fun r r' => r.1 = r'.1 ∧ r.2.Alike r'.2) (t.declare name) (t'.declare name) := by
  unfold Tables.declare
  rw [h.slots]
  dsimp only
  split
  · exact .ok ⟨rfl, rfl, h.callSites⟩
  · exact .error _

theorem Alike.write (path : List Char) :
    Agree SameMarker (t.write o path) (t'.write { o with constants } path) := by
  have hplain (r : Operand × List String × Tables) :
      (if r.2.1.isEmpty then [.variable r.1] else notes r.2.1).filterMap Action.skeleton? = [] := by
    split
    · rfl
    · exact skeleton_notes _
  unfold Tables.write
  apply (h.operand constants path).bind
  intro r r' hr
  exact .ok ⟨(hplain r).trans (hplain r').symm, hr⟩

theorem Alike.loopHeader (var container : List Char) :
    Agree (fun r r' => (r.1.entry = r'.1.entry ∧ r.1.next = r'.1.next) ∧ r.2.2.Alike r'.2.2)
      (t.loopHeader o var container) (t'.loopHeader { o with constants } var container) := by
  unfold Tables.loopHeader
  apply (h.headerOperand constants container).bind
  intro r r' hr
  apply (hr.declare var).bind
  rintro ⟨entry, t₁⟩ ⟨_, t₁'⟩ ⟨rfl, h₁⟩
  apply (h₁.declare (lookahead var)).bind
  rintro ⟨next, t₂⟩ ⟨_, t₂'⟩ ⟨rfl, h₂⟩
  exact .ok ⟨⟨rfl, rfl⟩, h₂⟩

theorem Alike.set (var value : List Char) :
    Agree SameMarker (t.set o var value) (t'.set { o with constants } var value) := by
  unfold Tables.set
  apply (h.operand constants value).bind
  intro r r' hr
  apply (hr.declare var).bind
  rintro ⟨target, t₁⟩ ⟨_, t₁'⟩ ⟨rfl, h₁⟩
  exact .ok ⟨by rw [skeleton_append, skeleton_append]; rfl, h₁⟩

theorem Alike.callee (name : String) : t.callee o name = t'.callee { o with constants } name := by
  unfold Tables.callee
  rw [h.slots]

theorem Alike.argument (known : Option Template) (text : List Char) :
    Agree (fun r r' => (r.1.name = r'.1.name ∧ r.1.slot = r'.1.slot) ∧ r.2.2.Alike r'.2.2)
      (t.argument o known text) (t'.argument { o with constants } known text) := by
  unfold Tables.argument
  split
  · exact .error _
  · dsimp only
    split
    · exact .error _
    · next param value _ _ =>
      apply (Agree.self fun _ _ => rfl : Agree Eq (Tables.argumentSlot known _) _).bind
      rintro slot _ rfl
      apply (h.operand constants value).bind
      intro r r' hr
      exact .ok ⟨⟨rfl, rfl⟩, hr⟩

theorem Alike.arguments (known : Option Template) (texts : List (List Char)) :
    Agree (fun r r' => r.1.map (fun a => (a.name, a.slot)) = r'.1.map (fun a => (a.name, a.slot)) ∧
        r.2.2.Alike r'.2.2)
      (t.arguments o known texts) (t'.arguments { o with constants } known texts) := by
  induction texts generalizing t t' with
  | nil => exact .ok ⟨rfl, h⟩
  | cons text rest ih =>
    rw [Tables.arguments, Tables.arguments]
    apply (h.argument constants known text).bind
    intro r r' ⟨⟨hname, hslot⟩, hr⟩
    apply (ih hr).bind
    intro s s' ⟨hargs, hs⟩
    exact .ok ⟨by rw [List.map_cons, List.map_cons, hname, hslot, hargs], hs⟩

theorem Alike.call (name : List Char) (args : Option (List Char)) :
    Agree SameMarker (t.call o name args) (t'.call { o with constants } name args) := by
  unfold Tables.call
  rw [h.callee constants]
  apply (Agree.self fun _ _ => rfl : Agree Eq (t'.callee { o with constants } _) _).bind
  rintro ⟨callee, known⟩ _ rfl
  apply (h.arguments constants known _).bind
  intro r r' ⟨hargs, hr⟩
  refine .ok ⟨?_, hr.slots, congrArg (· + 1) hr.callSites⟩
  rw [skeleton_append, skeleton_append]
  simp only [Action.skeleton?, hargs, hr.callSites]

theorem Alike.exec (op : List Char) (arg : Option (List Char)) :
    Agree SameMarker (t.exec o op arg) (t'.exec { o with constants } op arg) := by
  unfold Tables.exec
  dsimp only
  split
  · split
    · split
      · exact .error _
      · exact .error _
      · exact .ok ⟨rfl, h⟩
      · apply (h.operand constants _).bind
        intro r r' hr
        exact .ok ⟨by rw [skeleton_append, skeleton_append]; rfl, hr⟩
    · exact .error _
  · exact .error _

theorem Alike.debug (value compare : Option (List Char)) :
    Agree SameMarker (t.debug o value compare) (t'.debug { o with constants } value compare) := by
  unfold Tables.debug
  dsimp only
  split
  · exact .ok ⟨rfl, h⟩
  · apply (h.operand constants _).bind
    intro r r' hr
    exact .ok ⟨by rw [skeleton_append, skeleton_append]; rfl, hr⟩

end Tables

end TemplateEngine

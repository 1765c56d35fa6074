import TemplateEngine.Compile.Tables
import TemplateEngine.Proofs.Lockstep.Basic
import TemplateEngine.Proofs.Meaning.Lowered

/-! Two programs that have the same slots and calls, but whose expressions may be at different
places of their arenas. Where both read the same marker, they get actions that do the same. -/
namespace TemplateEngine

/-- The tables of two programs that differ in their arenas at most. -/
structure TwinTables where
  slots : SlotMap := .empty
  callSites : Nat := 0
  arena : Arena := {}
  arena' : Arena := {}

namespace TwinTables

def left (T : TwinTables) : Tables where
  slots := T.slots
  arena := T.arena
  callSites := T.callSites

def right (T : TwinTables) : Tables where
  slots := T.slots
  arena := T.arena'
  callSites := T.callSites

/-- What has been declared and allocated stays. -/
structure Grows (T T' : TwinTables) : Prop where
  slots : T.slots.names <+: T'.slots.names
  arena : T.arena.nodes <:+ T'.arena.nodes
  arena' : T.arena'.nodes <:+ T'.arena'.nodes

theorem Grows.refl (T : TwinTables) : T.Grows T :=
  ⟨List.prefix_rfl, List.suffix_rfl, List.suffix_rfl⟩

theorem Grows.trans {T T' T'' : TwinTables} (h : T.Grows T') (h' : T'.Grows T'') : T.Grows T'' :=
  ⟨h.slots.trans h'.slots, h.arena.trans h'.arena, h.arena'.trans h'.arena'⟩

/-- Two scopes that are the same but for their arenas, into which those of the tables have grown. -/
structure Sees (T : TwinTables) (s s' : Scope) : Prop where
  slots : T.slots.names <+: s.slots.names
  arena : T.arena.nodes <:+ s.arena.nodes
  arena' : T.arena'.nodes <:+ s'.arena.nodes
  same : s' = { s with arena := s'.arena }

theorem Sees.earlier {T T' : TwinTables} {s s' : Scope} (h : T'.Sees s s') (hT : T.Grows T') :
    T.Sees s s' :=
  ⟨hT.slots.trans h.slots, hT.arena.trans h.arena, hT.arena'.trans h.arena', h.same⟩

/-- Operands of the two programs with the same value and the same text. -/
structure Operands (T : TwinTables) (x x' : Operand) : Prop where
  value {s s' : Scope} : T.Sees s s' → s.resolve x = s'.resolve x'
  text {s s' : Scope} : T.Sees s s' → s.operandText x = s'.operandText x'

theorem Operands.later {T T' : TwinTables} {x x' : Operand} (h : T.Operands x x')
    (hT : T.Grows T') : T'.Operands x x' :=
  ⟨fun hs => h.value (hs.earlier hT), fun hs => h.text (hs.earlier hT)⟩

/-- Whatever means the same tree has the same value. -/
theorem operands_of_means {T : TwinTables} {names : Names} (hslots : names.slots = T.slots)
    {e : Expr.Ast} {x x' : Operand} (h : Lowering.OperandMeans names T.arena e x)
    (h' : Lowering.OperandMeans names T.arena' e x') : T.Operands x x' := by
  have hsees {s s' : Scope} (hs : T.Sees s s') : s.Sees names T.arena ∧ s'.Sees names T.arena' := by
    refine ⟨⟨hs.arena, hslots ▸ hs.slots⟩, ⟨hs.arena', ?_⟩⟩
    rw [hs.same, hslots]
    exact hs.slots
  constructor
  · intro s s' hs
    have halike : s.Alike s' := by
      rw [hs.same]
      exact ⟨rfl, rfl, rfl⟩
    rw [h.value s (hsees hs).1, h'.value s' (hsees hs).2, e.value_of_alike halike]
  · intro s s' hs
    rw [h.text s (hsees hs).1, h'.text s' (hsees hs).2]

theorem operands_constant (T : TwinTables) (v : Value) : T.Operands (.constant v) (.constant v) :=
  ⟨fun _ => rfl, fun _ => rfl⟩

/-! What reading a part of a marker gives in the two programs, with the tables after it. -/

inductive After {α β : Type} (T : TwinTables) (Q : TwinTables → α → β → Prop) :
    α × Tables → β × Tables → Prop where
  | intro {T' : TwinTables} {x : α} {x' : β} : T.Grows T' → Q T' x x' →
    After T Q (x, T'.left) (x', T'.right)

/-- Both find the same unknown names. -/
inductive Noted {α β : Type} (T : TwinTables) (Q : TwinTables → α → β → Prop) :
    α × List String × Tables → β × List String × Tables → Prop where
  | intro {T' : TwinTables} {x : α} {x' : β} (unknown : List String) : T.Grows T' → Q T' x x' →
    Noted T Q (x, unknown, T'.left) (x', unknown, T'.right)

/-- Arguments that go to the same place. -/
structure Arguments (T : TwinTables) (a a' : Argument) : Prop where
  name : a.name = a'.name
  slot : a.slot = a'.slot
  value : T.Operands a.value a'.value

structure Calls (T : TwinTables) (c c' : Call) : Prop where
  callee : c.callee = c'.callee
  args : List.Forall₂ T.Arguments c.args c'.args
  site : c.site = c'.site

structure Loops (T : TwinTables) (header header' : Loop) : Prop where
  container : T.Operands header.container header'.container
  entry : header.entry = header'.entry
  next : header.next = header'.next

/-- Actions that do the same. Of debug markers nothing is asked. -/
inductive Actions (T : TwinTables) : Action → Action → Prop where
  | literal (text : String) : Actions T (.literal text) (.literal text)
  | variable {x x' : Operand} : T.Operands x x' → Actions T (.variable x) (.variable x')
  | set (target : SlotId) {x x' : Operand} : T.Operands x x' →
    Actions T (.set target x) (.set target x')
  | call {c c' : Call} : T.Calls c c' → Actions T (.call c) (.call c')
  | exec (op : Operation) {arg arg' : Option Operand} : Option.Rel T.Operands arg arg' →
    Actions T (.exec op arg) (.exec op arg')
  | debug (value value' : Option Operand) (compare compare' : Option String) :
    Actions T (.debug value compare) (.debug value' compare')

/-- What a marker asks for in the two programs. -/
abbrev Markers (T : TwinTables) : Except Fault (List Action × Tables) →
    Except Fault (List Action × Tables) → Prop :=
  Agree (T.After fun T' => List.Forall₂ T'.Actions)

theorem Arguments.later {T T' : TwinTables} {a a' : Argument} (h : T.Arguments a a')
    (hT : T.Grows T') : T'.Arguments a a' :=
  ⟨h.name, h.slot, h.value.later hT⟩

variable (T : TwinTables) (o : CompileOptions)

theorem operand_agree (text : List Char) :
    Agree (T.Noted Operands) (T.left.operand o text) (T.right.operand o text) := by
  unfold Tables.operand Lowering.ofText
  dsimp only
  cases Expr.parse (Text.trim text) with
  | error reason => exact .error _
  | ok e =>
    let names : Names := ⟨T.slots, o.constants⟩
    let r := (Lowering.operandOf names (Text.trim text) e).run { arena := T.arena }
    let r' := (Lowering.operandOf names (Text.trim text) e).run { arena := T.arena' }
    obtain ⟨hgrows, hunknown, hmeans⟩ :=
      Lowering.gives_operandOf names (Text.trim text) e { arena := T.arena } List.suffix_rfl
    obtain ⟨hgrows', hunknown', hmeans'⟩ :=
      Lowering.gives_operandOf names (Text.trim text) e { arena := T.arena' } List.suffix_rfl
    let T' : TwinTables := { T with arena := r.2.arena, arena' := r'.2.arena }
    have hsame : r'.2.unknown = r.2.unknown := hunknown'.trans hunknown.symm
    change Agree (T.Noted Operands) (.ok (r.1, r.2.unknown, T'.left))
      (.ok (r'.1, r'.2.unknown, T'.right))
    rw [hsame]
    exact .ok (.intro _ ⟨List.prefix_rfl, hgrows, hgrows'⟩ (operands_of_means rfl hmeans hmeans'))

theorem headerOperand_agree (text : List Char) :
    Agree (T.Noted Operands) (T.left.headerOperand o text) (T.right.headerOperand o text) := by
  unfold Tables.headerOperand
  apply (T.operand_agree o text).bind
  rintro _ _ ⟨unknown, hT, hx⟩
  refine .ok (.intro unknown hT ?_)
  split
  · exact hx
  · exact operands_constant _ _

theorem declare_agree (name : List Char) :
    Agree (T.After fun _ => Eq) (T.left.declare name) (T.right.declare name) := by
  unfold Tables.declare
  dsimp only
  split
  · let r := T.slots.declare (String.ofList (Text.trim name))
    let T' : TwinTables := { T with slots := r.1 }
    have hT : T.Grows T' := ⟨SlotMap.declare_prefix _ _, List.suffix_rfl, List.suffix_rfl⟩
    exact .ok (.intro hT (rfl : r.2 = r.2))
  · exact .error _

theorem actions_notes (unknown : List String) :
    List.Forall₂ T.Actions (notes unknown) (notes unknown) := by
  refine List.forall₂_same.mpr fun a ha => ?_
  obtain ⟨name, -, rfl⟩ := List.mem_map.mp ha
  exact .literal _

/-- A marker that notes the unknown names, and then acts. -/
theorem actions_append (unknown : List String) {a a' : Action} (h : T.Actions a a') :
    List.Forall₂ T.Actions (notes unknown ++ [a]) (notes unknown ++ [a']) :=
  List.rel_append (T.actions_notes unknown) (.cons h .nil)

theorem write_agree (path : List Char) :
    T.Markers (T.left.write o path) (T.right.write o path) := by
  unfold Tables.write
  apply (T.operand_agree o path).bind
  rintro _ _ ⟨unknown, hT, hx⟩
  refine .ok (.intro hT ?_)
  split
  · exact .cons (.variable hx) .nil
  · exact actions_notes _ unknown

theorem loopHeader_agree (var container : List Char) :
    Agree (T.Noted Loops) (T.left.loopHeader o var container)
      (T.right.loopHeader o var container) := by
  unfold Tables.loopHeader
  apply (T.headerOperand_agree o container).bind
  rintro _ _ ⟨unknown, hT, hx⟩
  apply (declare_agree _ var).bind
  rintro _ _ ⟨hT', rfl⟩
  apply (declare_agree _ (Tables.lookahead var)).bind
  rintro _ _ ⟨hT'', rfl⟩
  exact .ok (.intro unknown (hT.trans (hT'.trans hT'')) ⟨hx.later (hT'.trans hT''), rfl, rfl⟩)

theorem set_agree (var value : List Char) :
    T.Markers (T.left.set o var value) (T.right.set o var value) := by
  unfold Tables.set
  apply (T.operand_agree o value).bind
  rintro _ _ ⟨unknown, hT, hx⟩
  apply (declare_agree _ var).bind
  rintro _ _ ⟨hT', rfl⟩
  exact .ok (.intro (hT.trans hT') (actions_append _ unknown (.set _ (hx.later hT'))))

theorem argument_agree (known : Option Template) (text : List Char) :
    Agree (T.Noted Arguments) (T.left.argument o known text) (T.right.argument o known text) := by
  unfold Tables.argument
  split
  · exact .error _
  · dsimp only
    split
    · exact .error _
    · next param value _ _ =>
      apply (Agree.self fun _ _ => rfl : Agree Eq (Tables.argumentSlot known _) _).bind
      rintro slot _ rfl
      apply (T.operand_agree o value).bind
      rintro _ _ ⟨unknown, hT, hx⟩
      exact .ok (.intro unknown hT ⟨rfl, rfl, hx⟩)

theorem arguments_agree (known : Option Template) (texts : List (List Char)) :
    Agree (T.Noted fun T' => List.Forall₂ T'.Arguments) (T.left.arguments o known texts)
      (T.right.arguments o known texts) := by
  induction texts generalizing T with
  | nil => exact .ok (.intro [] (.refl T) .nil)
  | cons text rest ih =>
    rw [Tables.arguments, Tables.arguments]
    apply (T.argument_agree o known text).bind
    rintro _ _ ⟨unknown, hT, ha⟩
    apply (ih _).bind
    rintro _ _ ⟨more, hT', hargs⟩
    exact .ok (.intro _ (hT.trans hT') (.cons (ha.later hT') hargs))

theorem call_agree (name : List Char) (args : Option (List Char)) :
    T.Markers (T.left.call o name args) (T.right.call o name args) := by
  unfold Tables.call
  apply (Agree.self fun _ _ => rfl : Agree Eq (T.left.callee o _) (T.right.callee o _)).bind
  rintro ⟨callee, known⟩ _ rfl
  apply (T.arguments_agree o known _).bind
  rintro _ _ ⟨unknown, hT, hargs⟩
  next T' args args' =>
  let T'' : TwinTables := { T' with callSites := T'.callSites + 1 }
  have hT' : T'.Grows T'' := ⟨List.prefix_rfl, List.suffix_rfl, List.suffix_rfl⟩
  refine .ok (.intro (hT.trans hT') (actions_append _ unknown (.call ⟨rfl, ?_, rfl⟩)))
  exact hargs.imp fun _ _ ha => ha.later hT'

theorem exec_agree (op : List Char) (arg : Option (List Char)) :
    T.Markers (T.left.exec o op arg) (T.right.exec o op arg) := by
  unfold Tables.exec
  dsimp only
  split
  · split
    · split
      · exact .error _
      · exact .error _
      · exact .ok (.intro (.refl T) (.cons (.exec _ .none) .nil))
      · apply (T.operand_agree o _).bind
        rintro _ _ ⟨unknown, hT, hx⟩
        exact .ok (.intro hT (actions_append _ unknown (.exec _ (.some hx))))
    · exact .error _
  · exact .error _

theorem debug_agree (value compare : Option (List Char)) :
    T.Markers (T.left.debug o value compare) (T.right.debug o value compare) := by
  unfold Tables.debug
  dsimp only
  split
  · exact .ok (.intro (.refl T) (.cons (.debug _ _ _ _) .nil))
  · apply (T.operand_agree o _).bind
    rintro _ _ ⟨unknown, hT, hx⟩
    exact .ok (.intro hT (actions_append _ unknown (.debug _ _ _ _)))

end TwinTables

end TemplateEngine

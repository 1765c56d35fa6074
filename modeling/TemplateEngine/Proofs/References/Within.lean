import TemplateEngine.Compile.Tables

/-! What a compiled template refers to: its slots and the nodes of its arena. Lowering an operand
only ever names slots that are there and nodes that were allocated before. -/
namespace TemplateEngine

/-- The node with the given number. Asking for one that is not there is a fault of the engine. -/
def Arena.node? (a : Arena) (id : ExprId) : Option Node :=
  a.nodes.reverse[id]?

/-! There are so many slots, and only nodes with a smaller number than `nodes` are referred to. -/

def Root.Within (slots : Nat) : Root → Prop
  | .slot s => s < slots
  | .constant _ | .target => True

def Access.Within (nodes : Nat) : Access → Prop
  | .call _ args => ∀ id ∈ args, id < nodes
  | .field _ | .index _ | .key _ => True

structure Path.Within (slots nodes : Nat) (p : Path) : Prop where
  root : p.root.Within slots
  accesses : ∀ a ∈ p.accesses, a.Within nodes

def Node.Within (slots nodes : Nat) : Node → Prop
  | .const _ => True
  | .path p => p.Within slots nodes
  | .unary _ operand => operand < nodes
  | .binary _ left right => left < nodes ∧ right < nodes

def Operand.Within (slots nodes : Nat) : Operand → Prop
  | .constant _ => True
  | .slot s => s < slots
  | .path p => p.Within slots nodes
  | .expr id => id < nodes

/-- Every node refers to smaller nodes only. -/
def Arena.Grounded (slots : Nat) (a : Arena) : Prop :=
  ∀ {id n}, a.node? id = some n → n.Within slots id

section Mono

variable {slots slots' nodes nodes' : Nat} (hslots : slots ≤ slots') (hnodes : nodes ≤ nodes')
include hslots

theorem Root.Within.mono {r : Root} (h : r.Within slots) : r.Within slots' := by
  cases r with
  | slot s => exact Nat.lt_of_lt_of_le h hslots
  | constant v => exact h
  | target => exact h

include hnodes

omit hslots in
theorem Access.Within.mono {a : Access} (h : a.Within nodes) : a.Within nodes' := by
  cases a with
  | call name args => exact fun id hid => Nat.lt_of_lt_of_le (h id hid) hnodes
  | field name => exact h
  | index i => exact h
  | key k => exact h

theorem Path.Within.mono {p : Path} (h : p.Within slots nodes) : p.Within slots' nodes' where
  root := h.root.mono hslots
  accesses a ha := (h.accesses a ha).mono hnodes

theorem Node.Within.mono {n : Node} (h : n.Within slots nodes) : n.Within slots' nodes' := by
  cases n with
  | const v => exact h
  | path p => exact Path.Within.mono hslots hnodes h
  | unary op operand => exact Nat.lt_of_lt_of_le h hnodes
  | binary op left right =>
    exact ⟨Nat.lt_of_lt_of_le h.1 hnodes, Nat.lt_of_lt_of_le h.2 hnodes⟩

theorem Operand.Within.mono {o : Operand} (h : o.Within slots nodes) : o.Within slots' nodes' := by
  cases o with
  | constant v => exact h
  | slot s => exact Nat.lt_of_lt_of_le h hslots
  | path p => exact Path.Within.mono hslots hnodes h
  | expr id => exact Nat.lt_of_lt_of_le h hnodes

omit hnodes in
theorem Arena.Grounded.mono {a : Arena} (h : a.Grounded slots) : a.Grounded slots' :=
  fun hn => (h hn).mono hslots (Nat.le_refl _)

end Mono

/-- What allocating nodes does to an arena: nodes stay, and new ones refer to smaller ones. -/
structure Arena.Extends (slots : Nat) (a a' : Arena) : Prop where
  size_le : a.size ≤ a'.size
  grounded : a.Grounded slots → a'.Grounded slots

namespace Arena

variable {slots : Nat}

theorem Extends.refl (a : Arena) : a.Extends slots a :=
  ⟨Nat.le_refl _, id⟩

theorem Extends.trans {a b c : Arena} (h : a.Extends slots b) (h' : b.Extends slots c) :
    a.Extends slots c :=
  ⟨Nat.le_trans h.size_le h'.size_le, h'.grounded ∘ h.grounded⟩

theorem exists_node? (a : Arena) {id : Nat} (h : id < a.size) : ∃ n, a.node? id = some n := by
  rw [size, ← List.length_reverse] at h
  exact ⟨_, List.getElem?_eq_getElem h⟩

theorem node?_alloc (a : Arena) (n : Node) (id : Nat) :
    (a.alloc n).1.node? id = if id = a.size then some n else a.node? id := by
  have hsize : a.nodes.reverse.length = a.size := List.length_reverse
  unfold node? alloc
  rw [List.reverse_cons]
  split
  · next heq => rw [heq, ← hsize, List.getElem?_concat_length]
  · next hne =>
    by_cases hlt : id < a.size
    · rw [List.getElem?_append_left (hsize.symm ▸ hlt)]
    · have hlength : (a.nodes.reverse ++ [n]).length ≤ id := by
        rw [List.length_append, hsize, List.length_singleton]
        omega
      rw [List.getElem?_eq_none hlength, List.getElem?_eq_none (by omega)]

theorem extends_alloc (a : Arena) {n : Node} (h : n.Within slots a.size) :
    a.Extends slots (a.alloc n).1 where
  size_le := Nat.le_succ _
  grounded ha := by
    intro id n' hn'
    rw [node?_alloc] at hn'
    split at hn'
    · next heq =>
      cases hn'
      exact heq ▸ h
    · exact ha hn'

end Arena

namespace Lowering

variable {α β : Type} {slots : Nat}

/-- From an arena of at least `size` nodes on, a step of the lowering extends the arena, and what it
gives is as said of the size that the arena has then. -/
def Lowers (slots size : Nat) (m : StateM Lowering α) (post : Nat → α → Prop) : Prop :=
  ∀ s : Lowering, size ≤ s.arena.size →
    s.arena.Extends slots (m.run s).2.arena ∧ post (m.run s).2.arena.size (m.run s).1

theorem Lowers.pure {size : Nat} {a : α} {post : Nat → α → Prop}
    (h : ∀ size', size ≤ size' → post size' a) : Lowers slots size (pure a) post := by
  intro s hs
  exact ⟨.refl s.arena, h s.arena.size hs⟩

theorem Lowers.bind {size : Nat} {m : StateM Lowering α} {f : α → StateM Lowering β}
    {mid : Nat → α → Prop} {post : Nat → β → Prop} (hm : Lowers slots size m mid)
    (hf : ∀ a size', size ≤ size' → mid size' a → Lowers slots size' (f a) post) :
    Lowers slots size (m >>= f) post := by
  intro s hs
  obtain ⟨hext, hmid⟩ := hm s hs
  obtain ⟨hext', hpost⟩ :=
    hf _ _ (Nat.le_trans hs hext.size_le) hmid (m.run s).2 (Nat.le_refl _)
  exact ⟨hext.trans hext', hpost⟩

theorem lowers_alloc {size : Nat} {n : Node} (h : n.Within slots size) :
    Lowers slots size (alloc n) fun size' id => id < size' := by
  intro s hs
  exact ⟨s.arena.extends_alloc (h.mono (Nat.le_refl _) hs), Nat.lt_succ_self _⟩

theorem lowers_reportUnknown {size : Nat} (name : String) :
    Lowers slots size (reportUnknown name) fun _ _ => True := by
  intro s _
  exact ⟨.refl s.arena, trivial⟩

end Lowering

theorem SlotMap.lt_of_lookup? {m : SlotMap} {name : String} {slot : SlotId}
    (h : m.lookup? name = some slot) : slot < m.size := by
  obtain ⟨hlt, -⟩ := List.idxOf?_eq_some_iff.mp h
  exact hlt

namespace Lowering

variable (names : Names)

theorem root?_within {head : Expr.Head} {r : Root} (h : names.root? head = some r) :
    r.Within names.slots.size := by
  cases head with
  | this => cases h; trivial
  | literal v => cases h; trivial
  | name s =>
    simp only [Names.root?] at h
    split at h
    · next slot hslot =>
      cases h
      exact SlotMap.lt_of_lookup? hslot
    · obtain ⟨v, -, rfl⟩ := Option.map_eq_some_iff.mp h
      trivial

theorem lowers_root {size : Nat} (operand : List Char) (head : Expr.Head) :
    Lowers names.slots.size size (root names operand head)
      fun _ r? => ∀ r ∈ r?, r.Within names.slots.size := by
  have hnone {size : Nat} : Lowers names.slots.size size (pure (none : Option Root))
      fun _ r? => ∀ r ∈ r?, r.Within names.slots.size := by
    apply Lowers.pure
    intro _ _ r hr
    cases hr
  unfold root
  split
  · next r hr =>
    apply Lowers.pure
    intro _ _ r' hr'
    cases hr'
    exact root?_within names hr
  · apply (lowers_reportUnknown _).bind
    intro _ _ _ _
    exact hnone
  · exact hnone

mutual

theorem lowers_expr {size : Nat} (operand : List Char) (e : Expr.Ast) :
    Lowers names.slots.size size (expr names operand e) fun size' id => id < size' := by
  match e with
  | .const v => exact lowers_alloc trivial
  | .path head steps =>
    rw [expr]
    apply (lowers_root names operand head).bind
    intro r? size' _ hr
    cases r? with
    | none => exact lowers_alloc trivial
    | some r =>
      apply (lowers_accesses operand steps).bind
      intro as size'' _ has
      exact lowers_alloc ⟨hr r rfl, has⟩
  | .unary op inner =>
    rw [expr]
    apply (lowers_expr operand inner).bind
    intro id size' _ hid
    exact lowers_alloc hid
  | .binary op left right =>
    rw [expr]
    apply (lowers_expr operand left).bind
    intro id size' _ hid
    apply (lowers_expr operand right).bind
    intro id' size'' hle hid'
    exact lowers_alloc ⟨Nat.lt_of_lt_of_le hid hle, hid'⟩

theorem lowers_access {size : Nat} (operand : List Char) (s : Expr.Step) :
    Lowers names.slots.size size (access names operand s) fun size' a => a.Within size' := by
  match s with
  | .field name => exact .pure fun _ _ => trivial
  | .index i => exact .pure fun _ _ => trivial
  | .key k => exact .pure fun _ _ => trivial
  | .call name args =>
    rw [access]
    apply (lowers_arguments operand args).bind
    intro ids size' _ hids
    apply Lowers.pure
    intro size'' hle id hid
    exact Nat.lt_of_lt_of_le (hids id hid) hle

theorem lowers_accesses {size : Nat} (operand : List Char) (steps : List Expr.Step) :
    Lowers names.slots.size size (accesses names operand steps)
      fun size' as => ∀ a ∈ as, a.Within size' := by
  match steps with
  | [] =>
    apply Lowers.pure
    intro _ _ a ha
    cases ha
  | s :: rest =>
    rw [accesses]
    apply (lowers_access operand s).bind
    intro a size' _ ha
    apply (lowers_accesses operand rest).bind
    intro as size'' hle has
    apply Lowers.pure
    intro size₃ hle'
    rw [List.forall_mem_cons]
    exact ⟨ha.mono (Nat.le_trans hle hle'), fun a' ha' => (has a' ha').mono hle'⟩

theorem lowers_arguments {size : Nat} (operand : List Char) (args : List Expr.Ast) :
    Lowers names.slots.size size (arguments names operand args)
      fun size' ids => ∀ id ∈ ids, id < size' := by
  match args with
  | [] =>
    apply Lowers.pure
    intro _ _ id hid
    cases hid
  | e :: rest =>
    rw [arguments]
    apply (lowers_expr operand e).bind
    intro id size' _ hid
    apply (lowers_arguments operand rest).bind
    intro ids size'' hle hids
    apply Lowers.pure
    intro size₃ hle'
    rw [List.forall_mem_cons]
    exact ⟨Nat.lt_of_lt_of_le hid (Nat.le_trans hle hle'),
      fun id' hid' => Nat.lt_of_lt_of_le (hids id' hid') hle'⟩

end

theorem lowers_operandOf {size : Nat} (operand : List Char) (e : Expr.Ast) :
    Lowers names.slots.size size (operandOf names operand e)
      fun size' o => o.Within names.slots.size size' := by
  unfold operandOf
  split
  · exact .pure fun _ _ => trivial
  · next head steps =>
    apply (lowers_root names operand head).bind
    intro r? size' _ hr
    cases r? with
    | none => exact .pure fun _ _ => trivial
    | some r =>
      have hroot := hr r rfl
      apply (lowers_accesses names operand steps).bind
      intro as size'' _ has
      split
      · exact .pure fun _ _ => hroot
      · exact .pure fun _ _ => trivial
      · apply Lowers.pure
        intro size₃ hle
        exact ⟨hroot, fun a ha => (has a ha).mono hle⟩
  · apply (lowers_expr names operand _).bind
    intro id size' _ hid
    apply Lowers.pure
    intro size'' hle
    exact Nat.lt_of_lt_of_le hid hle

end Lowering

end TemplateEngine

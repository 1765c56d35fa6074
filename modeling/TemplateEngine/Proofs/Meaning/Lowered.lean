import Mathlib.Data.List.Forall2
import TemplateEngine.Proofs.Meaning.Tree
import TemplateEngine.Proofs.References.Lookup

/-! A lowered operand means what its tree means, in the arena that it was lowered into and in every
arena that this one grows into. -/
namespace TemplateEngine

open TemplateEngine.Expr (Ast Step Head stepsText argumentTexts stepsValue argumentValues
  stepsUnknown argumentsUnknown)

/-- A scope with the nodes of an arena, and maybe later ones, and the slots that names are looked up
in, and maybe later ones. -/
structure Scope.Sees (names : Names) (a : Arena) (s : Scope) : Prop where
  arena : a.nodes <:+ s.arena.nodes
  slots : names.slots.names <+: s.slots.names

theorem Scope.Sees.earlier {names : Names} {a a' : Arena} {s : Scope} (h : s.Sees names a')
    (ha : a.nodes <:+ a'.nodes) : s.Sees names a :=
  ⟨ha.trans h.arena, h.slots⟩

theorem Arena.size_le_of_suffix {a a' : Arena} (h : a.nodes <:+ a'.nodes) : a.size ≤ a'.size :=
  h.length_le

namespace Lowering

section Means

variable (names : Names)

/-! What was lowered means what it was lowered from. -/

structure RootMeans (head : Head) (a : Arena) (r : Root) : Prop where
  value (s : Scope) : s.Sees names a → names.value? s head = some (s.root r)
  text (s : Scope) : s.Sees names a → names.text? head = some (s.rootText r)

structure IdMeans (a : Arena) (e : Ast) (id : ExprId) : Prop where
  within : id < a.size
  value (s : Scope) : s.Sees names a → s.expr id = e.value names s
  text (s : Scope) : s.Sees names a → s.exprText id = e.text names

structure AccessMeans (a : Arena) (step : Step) (access : Access) : Prop where
  within : access.Within a.size
  value (s : Scope) : s.Sees names a → ∀ v, s.access s.expr v access = step.value names s v
  text (s : Scope) : s.Sees names a → access.text s.exprText = step.text names

structure NodeMeans (a : Arena) (e : Ast) (n : Node) : Prop where
  within : ∃ slots, n.Within slots a.size
  value (s : Scope) : s.Sees names a → s.valueOf s.expr s.exprText n = e.value names s
  text (s : Scope) : s.Sees names a → s.textOf s.exprText n = e.text names

structure OperandMeans (a : Arena) (e : Ast) (o : Operand) : Prop where
  value (s : Scope) : s.Sees names a → s.resolve o = e.value names s
  text (s : Scope) : s.Sees names a → s.operandText o = e.text names

end Means

variable {names : Names} {a a' : Arena}

theorem IdMeans.later (ha : a.nodes <:+ a'.nodes) {e : Ast} {id : ExprId}
    (h : IdMeans names a e id) :
    IdMeans names a' e id where
  within := Nat.lt_of_lt_of_le h.within (Arena.size_le_of_suffix ha)
  value s hs := h.value s (hs.earlier ha)
  text s hs := h.text s (hs.earlier ha)

theorem AccessMeans.later (ha : a.nodes <:+ a'.nodes) {step : Step} {access : Access}
    (h : AccessMeans names a step access) : AccessMeans names a' step access where
  within := h.within.mono (Arena.size_le_of_suffix ha)
  value s hs := h.value s (hs.earlier ha)
  text s hs := h.text s (hs.earlier ha)

theorem lt_of_forall₂ {args : List Ast} {ids : List ExprId}
    (h : List.Forall₂ (IdMeans names a) args ids) : ∀ id ∈ ids, id < a.size := by
  induction h with
  | nil => nofun
  | cons hid _ ih => exact List.forall_mem_cons.mpr ⟨hid.within, ih⟩

theorem within_of_forall₂ {steps : List Step} {accesses : List Access}
    (h : List.Forall₂ (AccessMeans names a) steps accesses) : ∀ r ∈ accesses, r.Within a.size := by
  induction h with
  | nil => nofun
  | cons haccess _ ih => exact List.forall_mem_cons.mpr ⟨haccess.within, ih⟩

/-! A list of parts means what the list that it was lowered from means. -/

section Lists

variable {s : Scope} (hs : s.Sees names a)
include hs

theorem mapM_expr {args : List Ast} {ids : List ExprId}
    (h : List.Forall₂ (IdMeans names a) args ids) :
    ids.mapM s.expr = argumentValues names s args := by
  induction h with
  | nil => rfl
  | cons hid _ ih => rw [List.mapM_cons, argumentValues, hid.value s hs, ih]

theorem map_exprText {args : List Ast} {ids : List ExprId}
    (h : List.Forall₂ (IdMeans names a) args ids) :
    ids.map s.exprText = argumentTexts names args := by
  induction h with
  | nil => rfl
  | cons hid _ ih => rw [List.map_cons, argumentTexts, hid.text s hs, ih]

theorem foldlM_access_eq {steps : List Step} {accesses : List Access}
    (h : List.Forall₂ (AccessMeans names a) steps accesses) (v : Value) :
    accesses.foldlM (s.access s.expr) v = stepsValue names s v steps := by
  induction h generalizing v with
  | nil => rfl
  | cons haccess _ ih =>
    rw [List.foldlM_cons, stepsValue, haccess.value s hs]
    exact bind_congr fun w => ih w

theorem pathText_eq {steps : List Step} {accesses : List Access}
    (h : List.Forall₂ (AccessMeans names a) steps accesses) (root : String) (r : Root) :
    Path.text s.exprText root ⟨r, accesses⟩ = root ++ stepsText names steps := by
  unfold Path.text
  dsimp only
  induction h generalizing root with
  | nil => rw [stepsText, String.append_empty, List.foldl_nil]
  | cons haccess _ ih => rw [List.foldl_cons, stepsText, haccess.text s hs, ih, String.append_assoc]

end Lists

theorem pathMeans {head : Head} {r : Root} (hroot : RootMeans names head a r) {steps : List Step}
    {accesses : List Access} (h : List.Forall₂ (AccessMeans names a) steps accesses) {s : Scope}
    (hs : s.Sees names a) :
    s.path s.expr s.exprText ⟨r, accesses⟩ = (Ast.path head steps).value names s ∧
      s.pathText s.exprText ⟨r, accesses⟩ = (Ast.path head steps).text names := by
  have htext : s.pathText s.exprText ⟨r, accesses⟩ = (Ast.path head steps).text names := by
    rw [Scope.pathText, pathText_eq hs h, Ast.text, hroot.text s hs]
  refine ⟨?_, htext⟩
  cases hsteps : stepsValue names s (s.root r) steps with
  | ok v => simp only [Scope.path, foldlM_access_eq hs h, Ast.value, hroot.value s hs, hsteps]
  | error e =>
    simp only [Scope.path, foldlM_access_eq hs h, Ast.value, hroot.value s hs, hsteps, htext]

/-- From an arena that grew out of `base` on, a part of the lowering lets the arena grow, reports
`unknown` names, and gives what is said of it. -/
def Gives {α : Type} (base : Arena) (unknown : List String) (m : StateM Lowering α)
    (post : Arena → α → Prop) : Prop :=
  ∀ st : Lowering, base.nodes <:+ st.arena.nodes →
    let r := m.run st
    st.arena.nodes <:+ r.2.arena.nodes ∧ r.2.unknown = st.unknown ++ unknown ∧ post r.2.arena r.1

section Gives

variable {α β : Type} {base : Arena}

theorem Gives.pure {r : α} {post : Arena → α → Prop}
    (h : ∀ a, base.nodes <:+ a.nodes → post a r) : Gives base [] (pure r) post :=
  fun st hst => ⟨List.suffix_rfl, (List.append_nil _).symm, h st.arena hst⟩

theorem Gives.bind {unknown unknown' : List String} {m : StateM Lowering α}
    {f : α → StateM Lowering β} {mid : Arena → α → Prop} {post : Arena → β → Prop}
    (hm : Gives base unknown m mid)
    (hf : ∀ r a, base.nodes <:+ a.nodes → mid a r → Gives a unknown' (f r) post) :
    Gives base (unknown ++ unknown') (m >>= f) post := by
  intro st hst
  obtain ⟨hgrows, hunknown, hmid⟩ := hm st hst
  obtain ⟨hgrows', hunknown', hpost⟩ := hf _ _ (hst.trans hgrows) hmid (m.run st).2 List.suffix_rfl
  rw [hunknown, List.append_assoc] at hunknown'
  exact ⟨hgrows.trans hgrows', hunknown', hpost⟩

/-- A part that gives the result of another one in a new form. -/
theorem Gives.map {unknown : List String} {m : StateM Lowering α} {f : α → β}
    {mid : Arena → α → Prop} {post : Arena → β → Prop} (hm : Gives base unknown m mid)
    (hf : ∀ r a, base.nodes <:+ a.nodes → mid a r → post a (f r)) :
    Gives base unknown (do return f (← m)) post := by
  intro st hst
  obtain ⟨hgrows, hunknown, hmid⟩ := hm st hst
  exact ⟨hgrows, hunknown, hf _ _ (hst.trans hgrows) hmid⟩

theorem gives_alloc {e : Ast} {n : Node} (h : ∀ a, base.nodes <:+ a.nodes → NodeMeans names a e n) :
    Gives base [] (alloc n) fun a id => IdMeans names a e id := by
  intro st hst
  obtain ⟨⟨slots, hwithin⟩, hvalue, htext⟩ := h st.arena hst
  have hgrows : st.arena.nodes <:+ n :: st.arena.nodes := List.suffix_cons _ _
  refine ⟨hgrows, (List.append_nil _).symm, Nat.lt_succ_self _, ?_, ?_⟩
  · intro s hs
    obtain ⟨newer, hnodes⟩ := hs.arena
    exact (Scope.expr_eq_valueOf hnodes.symm hwithin).trans (hvalue s (hs.earlier hgrows))
  · intro s hs
    obtain ⟨newer, hnodes⟩ := hs.arena
    exact (Scope.exprText_eq_textOf hnodes.symm hwithin).trans (htext s (hs.earlier hgrows))

end Gives

/-! The lowering of a tree follows the tree, and gives what means the same. -/

theorem rootMeans_of_root? {head : Head} {r : Root} (h : names.root? head = some r) (a : Arena) :
    RootMeans names head a r := by
  cases head with
  | this =>
    cases h
    exact ⟨fun _ _ => rfl, fun _ _ => rfl⟩
  | literal v =>
    cases h
    exact ⟨fun _ _ => rfl, fun _ _ => rfl⟩
  | name name =>
    simp only [Names.root?] at h
    split at h
    · next slot hslot =>
      cases h
      refine ⟨fun s _ => ?_, fun s hs => ?_⟩
      · simp only [Names.value?, hslot, Scope.root]
      · have hfound : s.slots.nameOf? slot = some name :=
          SlotMap.lookup?_eq_some_iff.mp (SlotMap.lookup?_of_prefix hs.slots hslot)
        simp [Names.text?, hslot, Scope.rootText, Scope.slotName, hfound]
    · next hslot =>
      obtain ⟨v, hv, rfl⟩ := Option.map_eq_some_iff.mp h
      refine ⟨fun s _ => ?_, fun s _ => ?_⟩
      · simp only [Names.value?, hslot, hv, Scope.root]
      · simp [Names.text?, hslot, hv, Scope.rootText]

theorem value?_of_root?_eq_none {head : Head} (h : names.root? head = none) (s : Scope) :
    names.value? s head = none ∧ names.text? head = none := by
  cases head with
  | this => cases h
  | literal v => cases h
  | name name =>
    simp only [Names.root?] at h
    split at h
    · cases h
    · next hslot =>
      have hv := Option.map_eq_none_iff.mp h
      simp [Names.value?, Names.text?, hslot, hv]

variable (names) (operand : List Char)

theorem root_of_root? {head : Head} {r : Root} (h : names.root? head = some r) :
    root names operand head = pure (some r) := by
  simp only [root, h]

theorem unknown_of_root? {head : Head} {r : Root} (h : names.root? head = some r)
    (steps : List Step) :
    (Ast.path head steps).unknown names operand = stepsUnknown names operand steps := by
  simp only [Ast.unknown, h]

theorem gives_root_of_unknown {base : Arena} {head : Head} (h : names.root? head = none)
    (steps : List Step) :
    Gives base ((Ast.path head steps).unknown names operand) (root names operand head)
      fun _ r => r = none := by
  cases head with
  | name name =>
    simp only [root, Ast.unknown, h]
    exact fun st _ => ⟨List.suffix_rfl, rfl, rfl⟩
  | this => cases h
  | literal v => cases h

theorem nodeMeans_null {head : Head} (h : names.root? head = none) (steps : List Step) (a : Arena) :
    NodeMeans names a (.path head steps) (.const .null) where
  within := ⟨0, trivial⟩
  value s _ := by
    rw [Ast.value, (value?_of_root?_eq_none h s).1]
    rfl
  text s _ := by
    rw [Ast.text, (value?_of_root?_eq_none h s).2]
    rfl

mutual

theorem gives_expr {base : Arena} (e : Ast) :
    Gives base (e.unknown names operand) (expr names operand e)
      fun a id => IdMeans names a e id := by
  match e with
  | .const v =>
    rw [expr, Ast.unknown]
    exact gives_alloc fun a _ => ⟨⟨0, trivial⟩, fun _ _ => rfl, fun _ _ => rfl⟩
  | .path head steps =>
    cases hroot : names.root? head with
    | none =>
      rw [expr, ← List.append_nil ((Ast.path head steps).unknown names operand)]
      apply (gives_root_of_unknown names operand hroot steps).bind
      rintro _ a _ rfl
      exact gives_alloc fun a _ => nodeMeans_null names hroot steps a
    | some r =>
      rw [expr, root_of_root? names operand hroot, pure_bind, unknown_of_root? names operand hroot,
        ← List.append_nil (stepsUnknown names operand steps)]
      apply (gives_accesses steps).bind
      intro accesses a _ haccesses
      refine gives_alloc fun a' ha' => ?_
      have hlater := haccesses.imp fun _ _ h => h.later ha'
      have hmeans (s : Scope) (hs : s.Sees names a') :=
        pathMeans (rootMeans_of_root? hroot a') hlater hs
      exact {
        within := ⟨names.slots.size, root?_within names hroot, within_of_forall₂ hlater⟩
        value s hs := (hmeans s hs).1
        text s hs := (hmeans s hs).2 }
  | .unary op inner =>
    rw [expr, Ast.unknown, ← List.append_nil (inner.unknown names operand)]
    apply (gives_expr inner).bind
    intro id a _ hid
    refine gives_alloc fun a' ha' => ?_
    have hid := hid.later ha'
    exact {
      within := ⟨0, hid.within⟩
      value s hs := by
        rw [Scope.valueOf, Ast.value, Scope.textOf, Ast.text, hid.value s hs, hid.text s hs]
      text s hs := by rw [Scope.textOf, Ast.text, hid.text s hs] }
  | .binary op left right =>
    rw [expr, Ast.unknown, ← List.append_nil (right.unknown names operand)]
    apply (gives_expr left).bind
    intro id a _ hid
    apply (gives_expr right).bind
    intro id' a' ha' hid'
    refine gives_alloc fun a'' ha'' => ?_
    have hleft := hid.later (ha'.trans ha'')
    have hright := hid'.later ha''
    have htext (s : Scope) (hs : s.Sees names a'') :
        s.textOf s.exprText (.binary op id id') = (Ast.binary op left right).text names := by
      rw [Scope.textOf, Ast.text, hleft.text s hs, hright.text s hs]
    exact {
      within := ⟨0, hleft.within, hright.within⟩
      value s hs := by
        rw [Scope.valueOf.eq_def, htext s hs]
        cases op <;> simp only [Ast.value, hleft.value s hs, hright.value s hs]
      text := htext }

theorem gives_access {base : Arena} (step : Step) :
    Gives base (step.unknown names operand) (access names operand step)
      fun a r => AccessMeans names a step r := by
  match step with
  | .field name => exact .pure fun _ _ => ⟨trivial, fun _ _ _ => rfl, fun _ _ => rfl⟩
  | .index i => exact .pure fun _ _ => ⟨trivial, fun _ _ _ => rfl, fun _ _ => rfl⟩
  | .key k => exact .pure fun _ _ => ⟨trivial, fun _ _ _ => rfl, fun _ _ => rfl⟩
  | .call name args =>
    rw [access, Step.unknown]
    refine (gives_arguments args).map fun ids a _ hids => ?_
    exact {
      within := lt_of_forall₂ hids
      value s hs v := by
        cases hargs : argumentValues names s args with
        | ok values => simp only [Scope.access, Step.value, mapM_expr hs hids, hargs]
        | error e => simp only [Scope.access, Step.value, mapM_expr hs hids, hargs]
      text s hs := by rw [Access.text, Step.text, map_exprText hs hids] }

theorem gives_accesses {base : Arena} (steps : List Step) :
    Gives base (stepsUnknown names operand steps) (accesses names operand steps)
      fun a r => List.Forall₂ (AccessMeans names a) steps r := by
  match steps with
  | [] => exact .pure fun _ _ => .nil
  | step :: rest =>
    rw [accesses, stepsUnknown]
    apply (gives_access step).bind
    intro access a _ haccess
    refine (gives_accesses rest).map fun accesses a' ha' haccesses => ?_
    exact .cons (haccess.later ha') haccesses

theorem gives_arguments {base : Arena} (args : List Ast) :
    Gives base (argumentsUnknown names operand args) (arguments names operand args)
      fun a r => List.Forall₂ (IdMeans names a) args r := by
  match args with
  | [] => exact .pure fun _ _ => .nil
  | arg :: rest =>
    rw [arguments, argumentsUnknown]
    apply (gives_expr arg).bind
    intro id a _ hid
    refine (gives_arguments rest).map fun ids a' ha' hids => ?_
    exact .cons (hid.later ha') hids

end

theorem gives_exprOperand {base : Arena} (e : Ast) :
    Gives base (e.unknown names operand) (do return .expr (← expr names operand e))
      fun a o => OperandMeans names a e o :=
  (gives_expr names operand e).map fun _ _ _ hid => ⟨hid.value, hid.text⟩

theorem gives_operandOf {base : Arena} (e : Ast) :
    Gives base (e.unknown names operand) (operandOf names operand e)
      fun a o => OperandMeans names a e o := by
  match e with
  | .const v =>
    rw [operandOf, Ast.unknown]
    exact .pure fun a _ => ⟨fun _ _ => rfl, fun _ _ => rfl⟩
  | .path head steps =>
    cases hroot : names.root? head with
    | none =>
      rw [operandOf, ← List.append_nil ((Ast.path head steps).unknown names operand)]
      apply (gives_root_of_unknown names operand hroot steps).bind
      rintro _ a _ rfl
      have hnull := nodeMeans_null names hroot steps
      exact .pure fun a _ => ⟨(hnull a).value, (hnull a).text⟩
    | some r =>
      rw [operandOf, root_of_root? names operand hroot, pure_bind,
        unknown_of_root? names operand hroot, ← List.append_nil (stepsUnknown names operand steps)]
      apply (gives_accesses names operand steps).bind
      intro accesses a _ haccesses
      have hmeans (a' : Arena) (ha' : a.nodes <:+ a'.nodes) (s : Scope) (hs : s.Sees names a') :=
        pathMeans (rootMeans_of_root? hroot a') (haccesses.imp fun _ _ h => h.later ha') hs
      -- A slot or a constant alone is the path that ends where it starts.
      split
      all_goals exact .pure fun a' ha' =>
        ⟨fun s hs => (hmeans a' ha' s hs).1, fun s hs => (hmeans a' ha' s hs).2⟩
  | .unary op inner => exact gives_exprOperand names operand (.unary op inner)
  | .binary op left right => exact gives_exprOperand names operand (.binary op left right)

end Lowering

/-- An operand means what its tree means, whether it is a constant, a slot or a path or is in the
arena: it has the same value, or the same failure with the same text. It does so as well if all of
the tree is in the arena, and also after more nodes were allocated and more slots declared. -/
theorem resolve_lowered (names : Names) (operand : List Char) (e : Ast) (start : Lowering)
    (s : Scope) :
    let r := (Lowering.operandOf names operand e).run start
    let r' := (Lowering.expr names operand e).run start
    (s.Sees names r.2.arena →
        s.resolve r.1 = e.value names s ∧ s.operandText r.1 = e.text names) ∧
      (s.Sees names r'.2.arena →
        s.expr r'.1 = e.value names s ∧ s.exprText r'.1 = e.text names) ∧
      r.2.unknown = start.unknown ++ e.unknown names operand := by
  intro r r'
  obtain ⟨-, hunknown, hoperand⟩ :=
    Lowering.gives_operandOf names operand e start (List.suffix_rfl (l := start.arena.nodes))
  obtain ⟨-, -, hexpr⟩ :=
    Lowering.gives_expr names operand e start (List.suffix_rfl (l := start.arena.nodes))
  exact ⟨fun hs => ⟨hoperand.value s hs, hoperand.text s hs⟩,
    fun hs => ⟨hexpr.value s hs, hexpr.text s hs⟩, hunknown⟩

/-- A method call with an argument in the arena, which has grown since; the slot `i` has no value,
so the sum fails, and with it the call. -/
theorem resolve_lowered_call :
    let operand := "xs.join(i + k) == k".toList
    let names : Names := ⟨{ names := ["xs", "i"] }, [("k", .int 1)]⟩
    ∃ e, Expr.parse operand = .ok e ∧
      let r := (Lowering.operandOf names operand e).run { arena := {} }
      let s : Scope :=
        { host := .bare, slots := { names := ["xs", "i", "later"] },
          arena := ⟨.const .null :: r.2.arena.nodes⟩, values := [.list []], target := .null }
      s.resolve r.1 = e.value names s ∧
        e.value names s matches .error ⟨"xs.join(i + 1)", .binaryMismatch .add "null" "int"⟩ := by
  intro operand names
  let scope (arena : Arena) : Scope :=
    { host := .bare, slots := { names := ["xs", "i", "later"] },
      arena := ⟨.const .null :: arena.nodes⟩, values := [.list []], target := .null }
  have hfails : (Expr.parse operand).toOption.any (fun e =>
      let r := (Lowering.operandOf names operand e).run { arena := {} }
      e.value names (scope r.2.arena) matches
        .error ⟨"xs.join(i + 1)", .binaryMismatch .add "null" "int"⟩) = true := by decide +kernel
  cases he : Expr.parse operand with
  | error e =>
    rw [he] at hfails
    cases hfails
  | ok e =>
    rw [he] at hfails
    refine ⟨e, rfl, ?_⟩
    intro r s
    have hs : s.Sees names r.2.arena := ⟨List.suffix_cons _ _, ⟨["later"], rfl⟩⟩
    exact ⟨((resolve_lowered names operand e { arena := {} } s).1 hs).1, hfails⟩

end TemplateEngine

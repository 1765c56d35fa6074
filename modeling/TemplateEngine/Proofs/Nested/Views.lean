import Mathlib.Data.List.Basic
import TemplateEngine.Proofs.Nested.Layout

/-! Views of a layout that do not see where its jumps lead. Through such a view a marker only ever
adds something at the end; the headers that are filled in later look the same. -/
namespace TemplateEngine

structure Instr.View (β : Type) where
  sees : Instr → List β
  setNext (next : Nat) (i : Instr) : sees (i.setNext next) = sees i
  setStop (stop : Nat) (i : Instr) : sees (i.setStop stop) = sees i

/-- A view that does not see texts either. -/
def Instr.View.Textless {β : Type} (v : Instr.View β) : Prop :=
  ∀ text, v.sees (.action (.literal text)) = []

theorem flatMap_modify {β : Type} {g : Instr → List β} {f : Instr → Instr}
    (hf : ∀ i, g (f i) = g i) (is : List Instr) (place : Nat) :
    (is.modify place f).flatMap g = is.flatMap g := by
  induction is generalizing place with
  | nil => rw [List.modify_nil]
  | cons i is ih =>
    cases place with
    | zero => rw [List.modify_zero_cons, List.flatMap_cons, List.flatMap_cons, hf]
    | succ place => rw [List.modify_succ_cons, List.flatMap_cons, List.flatMap_cons, ih]

theorem filterMap_modify {β : Type} {g : Instr → Option β} {f : Instr → Instr}
    (hf : ∀ i, g (f i) = g i) (is : List Instr) (place : Nat) :
    (is.modify place f).filterMap g = is.filterMap g := by
  have hlist (i : Instr) : (g (f i)).toList = (g i).toList := congrArg Option.toList (hf i)
  rw [List.filterMap_eq_flatMap_toList, flatMap_modify hlist, List.filterMap_eq_flatMap_toList]

namespace Emitter

theorem tables_foldl_patch (e : Emitter) (places : List Nat) (f : Nat → Instr → Instr) :
    (places.foldl (fun e place => e.patch place (f place)) e).tables = e.tables := by
  induction places generalizing e with
  | nil => rfl
  | cons place rest ih => exact ih (e.patch place (f place))

variable {β : Type} (v : Instr.View β) (e : Emitter)

def seen : List β :=
  e.instrs.toList.flatMap v.sees

theorem seen_emit (i : Instr) : (e.emit i).seen v = e.seen v ++ v.sees i := by
  rw [seen, emit, Array.toList_push, List.flatMap_append, List.flatMap_singleton, seen]

theorem seen_emitAll (actions : List Action) :
    (e.emitAll actions).seen v = e.seen v ++ actions.flatMap fun a => v.sees (.action a) := by
  rw [emitAll_eq, seen, Array.toList_appendList, List.flatMap_append, List.flatMap_map, seen]

theorem seen_patch (place : Nat) {f : Instr → Instr} (hf : ∀ i, v.sees (f i) = v.sees i) :
    (e.patch place f).seen v = e.seen v := by
  rw [seen, patch, Array.toList_modify, flatMap_modify hf, seen]

theorem seen_foldl_patch (places : List Nat) {f : Nat → Instr → Instr}
    (hf : ∀ place i, v.sees (f place i) = v.sees i) :
    (places.foldl (fun e place => e.patch place (f place)) e).seen v = e.seen v := by
  induction places generalizing e with
  | nil => rfl
  | cons place rest ih => exact (ih _).trans (e.seen_patch v place (hf place))

/-- Filling in the headers of a chain. -/
theorem seen_closed (last : Option Nat) (links : List Nat) :
    let led := last.elim e fun l => e.patch l (Instr.setNext (e.instrs.size - l))
    let closed :=
      links.foldl (fun k link => k.patch link (Instr.setStop (e.instrs.size - link))) led
    closed.tables = e.tables ∧ closed.seen v = e.seen v := by
  intro led closed
  have hled : led.tables = e.tables ∧ led.seen v = e.seen v := by
    cases last with
    | none => exact ⟨rfl, rfl⟩
    | some l => exact ⟨rfl, e.seen_patch v l (v.setNext _)⟩
  exact ⟨(tables_foldl_patch led links _).trans hled.1,
    (seen_foldl_patch v led links fun _ => v.setStop _).trans hled.2⟩

section Textless

variable {v} (hv : v.Textless)
include hv

theorem seen_notes (unknown : List String) :
    (e.emitAll (notes unknown)).seen v = e.seen v := by
  rw [seen_emitAll, notes, List.flatMap_map]
  simp [hv _]

theorem seen_flush : e.flush.seen v = e.seen v := by
  unfold flush
  split
  · rfl
  · exact (e.seen_emit v _).trans (by rw [hv, List.append_nil])

end Textless

/-! A closing marker comes after the text before it. -/

variable {e} {e' : Emitter}

theorem seen_closeLink {next : BranchKind} (h : e.closeLink next = .ok e') :
    e'.tables = e.tables ∧ e'.seen v = e.flush.seen v := by
  unfold closeLink at h
  dsimp only at h
  split at h
  · cases h
  · cases h
    exact ⟨e.flush_tables, e.flush.seen_patch v _ (v.setNext _)⟩
  · cases h

theorem seen_closeIf (h : e.closeIf = .ok e') :
    e'.tables = e.tables ∧ e'.seen v = e.flush.seen v := by
  unfold closeIf at h
  dsimp only at h
  split at h
  · next links hasElse blocks _ =>
    cases h
    obtain ⟨htables, hseen⟩ := e.flush.seen_closed v (if hasElse then none else links.head?) links
    exact ⟨htables.trans e.flush_tables, hseen⟩
  · cases h
  · cases h

theorem seen_closeFor (h : e.closeFor = .ok e') :
    e'.tables = e.tables ∧ e'.seen v = e.flush.seen v ++ v.sees .endLoop := by
  unfold closeFor at h
  dsimp only at h
  split at h
  · next header blocks _ =>
    cases h
    exact ⟨e.flush_tables, (seen_patch v _ header (v.setStop _)).trans (seen_emit v _ _)⟩
  · cases h
  · cases h

end Emitter

end TemplateEngine

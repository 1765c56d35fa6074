import TemplateEngine.Proofs.Nested.Layout

/-! Where each part of a nested program stands in the flat one, in absolute places. -/
namespace TemplateEngine

/-- The instructions from `place` on begin with `part`. -/
def CodeAt (is : List Instr) (place : Nat) (part : List Instr) : Prop :=
  part <+: is.drop place

namespace CodeAt

variable {is a b part : List Instr} {i : Instr} {place : Nat}

theorem self (is : List Instr) : CodeAt is 0 is :=
  List.prefix_refl is

theorem left (h : CodeAt is place (a ++ b)) : CodeAt is place a :=
  (List.prefix_append a b).trans h

theorem right (h : CodeAt is place (a ++ b)) : CodeAt is (place + a.length) b := by
  obtain ⟨after, h⟩ := h
  have hdrop : is.drop (place + a.length) = b ++ after := by
    rw [← List.drop_drop, ← h, List.append_assoc, List.drop_left]
  exact ⟨after, hdrop.symm⟩

theorem tail (h : CodeAt is place (i :: part)) : CodeAt is (place + 1) part :=
  right (a := [i]) h

theorem head (h : CodeAt is place (i :: part)) : is[place]? = some i := by
  obtain ⟨after, h⟩ := h
  rw [← List.head?_drop, ← h]
  rfl

end CodeAt

mutual

/-- From `start` up to `stop` the instructions are those of a part of a block: each jump of a header
leads to the place that its marker asks for, and the closing instruction of a loop is its own. -/
def Item.LaidOut (is : List Instr) (start stop : Nat) : Item → Prop
  | .action a => is[start]? = some (.action a) ∧ start + 1 = stop
  | .choice c => c.LaidOut is true start stop
  | .loop header body => ∃ n close,
      is[start]? = some (.loop header n) ∧ start + n = stop ∧
      body.LaidOut is (start + 1) close ∧
      is[close]? = some .endLoop ∧ close + 1 = stop

def Block.LaidOut (is : List Instr) (start stop : Nat) : Block → Prop
  | .nil => start = stop
  | .cons first rest => ∃ middle, first.LaidOut is start middle ∧ rest.LaidOut is middle stop

/-- Each branch leads to the notes of the next one, or to the `else`, or past the chain; `stop` is
the place past the chain for all of them. -/
def Chain.LaidOut (is : List Instr) (first : Bool) (start stop : Nat) : Chain → Prop
  | .done => start = stop
  | .otherwise body => is[start]? = some .otherwise ∧ body.LaidOut is (start + 1) stop
  | .branch unknown cond body more => ∃ place next n,
      CodeAt is start (noteInstrs unknown) ∧ start + unknown.length = place ∧
      is[place]? = some (.branch first cond next n) ∧ place + n = stop ∧
      body.LaidOut is (place + 1) (place + next) ∧
      more.LaidOut is false (place + next) stop

end

mutual

theorem Item.laidOut_of_codeAt {is : List Instr} {start stop : Nat} (i : Item)
    (h : CodeAt is start i.flatten) (hstop : start + i.flatten.length = stop) :
    i.LaidOut is start stop := by
  match i with
  | .action a => exact ⟨h.head, hstop⟩
  | .choice c => exact c.laidOut_of_codeAt h hstop
  | .loop header body =>
    rw [Item.flatten] at h hstop
    simp only [List.length_cons, List.length_append, List.length_nil] at hstop
    have hbody := body.laidOut_of_codeAt h.tail.left rfl
    have hclose := h.tail.right.head
    exact ⟨_, _, h.head, by omega, hbody, hclose, by omega⟩

theorem Block.laidOut_of_codeAt {is : List Instr} {start stop : Nat} (b : Block)
    (h : CodeAt is start b.flatten) (hstop : start + b.flatten.length = stop) :
    b.LaidOut is start stop := by
  match b with
  | .nil => exact hstop
  | .cons first rest =>
    rw [Block.flatten] at h hstop
    rw [List.length_append] at hstop
    exact ⟨_, first.laidOut_of_codeAt h.left rfl, rest.laidOut_of_codeAt h.right (by omega)⟩

theorem Chain.laidOut_of_codeAt {is : List Instr} {first : Bool} {start stop : Nat} (c : Chain)
    (h : CodeAt is start (c.flatten first)) (hstop : start + (c.flatten first).length = stop) :
    c.LaidOut is first start stop := by
  match c with
  | .done => exact hstop
  | .otherwise body =>
    rw [Chain.flatten] at h hstop
    rw [List.length_cons] at hstop
    exact ⟨h.head, body.laidOut_of_codeAt h.tail (by omega)⟩
  | .branch unknown cond body more =>
    rw [Chain.flatten] at h hstop
    simp only [List.length_append, List.length_cons, length_noteInstrs] at hstop
    have hheader := h.right
    rw [length_noteInstrs] at hheader
    refine ⟨_, _, _, h.left, rfl, hheader.head, by omega,
      body.laidOut_of_codeAt hheader.tail.left (by omega), ?_⟩
    have hmore := hheader.tail.right
    rw [Nat.add_assoc, Nat.add_comm 1] at hmore
    exact more.laidOut_of_codeAt hmore (by omega)

end

mutual

theorem Item.LaidOut.length_eq {is : List Instr} {start stop : Nat} {i : Item}
    (h : i.LaidOut is start stop) : start + i.flatten.length = stop := by
  match i, h with
  | .action a, ⟨_, hstop⟩ => exact hstop
  | .choice c, h => exact Chain.LaidOut.length_eq (c := c) h
  | .loop header body, ⟨n, close, _, _, hbody, _, hstop⟩ =>
    have hlength := hbody.length_eq
    simp only [Item.flatten, List.length_cons, List.length_append, List.length_nil]
    omega

theorem Block.LaidOut.length_eq {is : List Instr} {start stop : Nat} {b : Block}
    (h : b.LaidOut is start stop) : start + b.flatten.length = stop := by
  match b, h with
  | .nil, hstop => exact hstop
  | .cons first rest, ⟨middle, hfirst, hrest⟩ =>
    have hlength := hfirst.length_eq
    have hlength' := hrest.length_eq
    simp only [Block.flatten, List.length_append]
    omega

theorem Chain.LaidOut.length_eq {is : List Instr} {first : Bool} {start stop : Nat} {c : Chain}
    (h : c.LaidOut is first start stop) : start + (c.flatten first).length = stop := by
  match c, h with
  | .done, hstop => exact hstop
  | .otherwise body, ⟨_, hbody⟩ =>
    have hlength := hbody.length_eq
    simp only [Chain.flatten, List.length_cons]
    omega
  | .branch unknown cond body more, ⟨place, next, n, _, hplace, _, _, hbody, hmore⟩ =>
    have hlength := hbody.length_eq
    have hlength' := hmore.length_eq
    simp only [Chain.flatten, List.length_append, List.length_cons, length_noteInstrs]
    omega

end

end TemplateEngine

import TemplateEngine.Run.Machine

/-! How a run can fail. If the sink takes all that is written, only too deep a call ends a run
early. -/
namespace TemplateEngine

section

variable {σ : Type} [Sink σ]

/-- Every write is taken in full, whatever was written before. -/
def Sink.AcceptsAll (sink : σ) : Prop :=
  ∀ (texts : List String) (text : String),
    (Sink.write (texts.foldl (fun sink text => (Sink.write sink text).1) sink) text).2 = true

theorem Sink.AcceptsAll.taken {sink : σ} (h : AcceptsAll sink) (text : String) :
    (Sink.write sink text).2 = true :=
  h [] text

theorem Sink.AcceptsAll.write {sink : σ} (h : AcceptsAll sink) (text : String) :
    AcceptsAll (Sink.write sink text).1 := by
  intro texts text'
  exact h (text :: texts) text'

/-- With a sink that takes all writes, a part of a run can only fail by exceeding the call depth,
and afterwards the sink still takes all writes. -/
def Run.Limited {α : Type} (limit : Nat) (m : Run σ α) : Prop :=
  ∀ s : RunState σ, Sink.AcceptsAll s.sink →
    Sink.AcceptsAll (m.run.run s).2.sink ∧
      ∀ e, (m.run.run s).1 = .error e → ∃ chain, e = .recursionLimit limit chain

namespace Run.Limited

variable {limit : Nat} {α β : Type}

theorem pure (a : α) : Limited (σ := σ) limit (pure a) :=
  fun _ hs => ⟨hs, nofun⟩

theorem get : Limited (σ := σ) limit get :=
  fun _ hs => ⟨hs, nofun⟩

theorem exceeded (chain : List String) :
    Limited (σ := σ) (α := α) limit (throw (.recursionLimit limit chain)) := by
  intro s hs
  refine ⟨hs, ?_⟩
  rintro e ⟨⟩
  exact ⟨chain, rfl⟩

theorem bind {m : Run σ α} {k : α → Run σ β} (hm : Limited limit m)
    (hk : ∀ a, Limited limit (k a)) : Limited limit (m >>= k) := by
  intro s hs
  obtain ⟨hsink, herror⟩ := hm s hs
  cases hr : m.run.run s with
  | mk result s' =>
    rw [hr] at hsink herror
    cases result with
    | ok a =>
      have hrun : (m >>= k).run.run s = (k a).run.run s' := by
        simp only [ExceptT.run_bind, StateT.run_bind, hr]
        rfl
      rw [hrun]
      exact hk a s' hsink
    | error e =>
      have hrun : (m >>= k).run.run s = (.error e, s') := by
        simp only [ExceptT.run_bind, StateT.run_bind, hr]
        rfl
      rw [hrun]
      refine ⟨hsink, ?_⟩
      rintro e' ⟨⟩
      exact herror e rfl

theorem emit (text : String) : Limited (σ := σ) limit (Run.emit text) := by
  intro s hs
  have hrun : (Run.emit text).run.run s =
      (.ok (), { s with sink := (Sink.write s.sink text).1 }) := by
    change
      (if !(Sink.write s.sink text).2 then throw .output else Pure.pure () : Run σ Unit).run.run
        { s with sink := (Sink.write s.sink text).1 } = _
    rw [hs.taken text]
    rfl
  rw [hrun]
  exact ⟨hs.write text, nofun⟩

theorem emitAll (texts : List String) : Limited (σ := σ) limit (Run.emitAll texts) := by
  induction texts with
  | nil => exact .pure ()
  | cons text rest ih => exact (Limited.emit text).bind fun _ => ih

theorem modify {g : RunState σ → RunState σ} (h : ∀ s, (g s).sink = s.sink) :
    Limited limit (modify g) := by
  intro s hs
  refine ⟨?_, nofun⟩
  rw [← h s] at hs
  exact hs

theorem store (slot : SlotId) (v : Value) : Limited (σ := σ) limit (Run.store slot v) :=
  .modify fun _ => rfl

theorem fire (e : DebugEvent) : Limited (σ := σ) limit (Run.fire e) :=
  .modify fun _ => rfl

theorem within {body : Run σ Unit} (h : Limited limit body) (site : SiteId) (callee : Template) :
    Limited limit (Run.within site callee body) := by
  intro s hs
  exact h { s with context := s.context.enter site callee } hs

end Run.Limited

namespace Frame

open Run (Limited)

variable (f : Frame) (limit : Nat)

theorem limited_currentScope : Limited (σ := σ) limit f.currentScope :=
  .bind .get fun _ => .pure _

theorem limited_report (e : DataError) : Limited (σ := σ) limit (f.report e) := by
  unfold report
  split
  · exact .emit _
  · exact .pure ()

theorem limited_valueOrNull (o : Operand) : Limited (σ := σ) limit (f.valueOrNull o) := by
  apply Limited.bind (f.limited_currentScope limit)
  intro scope
  split
  · exact .pure _
  · exact (f.limited_report limit _).bind fun _ => .pure _

theorem limited_writeVariable (o : Operand) : Limited (σ := σ) limit (f.writeVariable o) := by
  apply Limited.bind (f.limited_currentScope limit)
  intro scope
  split
  · exact f.limited_report limit _
  · exact .emitAll _
  · exact f.limited_report limit _

theorem limited_condition (o : Operand) : Limited (σ := σ) limit (f.condition o) := by
  apply Limited.bind (f.limited_currentScope limit)
  intro scope
  split
  · exact .pure _
  · exact (f.limited_report limit _).bind fun _ => .pure _

theorem limited_elements (o : Operand) : Limited (σ := σ) limit (f.elements o) := by
  have hrefuse : ∀ e : DataError,
      Limited (σ := σ) limit (do f.report e; return ([] : List Value)) := by
    intro e
    apply Limited.bind (f.limited_report limit e)
    intro _
    exact .pure _
  apply Limited.bind (f.limited_currentScope limit)
  intro scope
  dsimp only
  split
  · exact hrefuse _
  · exact .pure _
  · exact .pure _
  · exact .pure _
  · split
    · exact .pure _
    · exact hrefuse _
  · exact hrefuse _

theorem limited_evaluate (args : List Argument) : Limited (σ := σ) limit (f.evaluate args) := by
  induction args with
  | nil => exact .pure _
  | cons a rest ih =>
    apply Limited.bind (f.limited_valueOrNull limit _)
    intro v
    apply Limited.bind ih
    intro rest'
    exact .pure _

theorem limited_bindArguments (callee : Template) (args : List (Argument × Value)) :
    Limited (σ := σ) limit (f.bindArguments callee args) := by
  induction args with
  | nil => exact .pure _
  | cons first rest ih =>
    obtain ⟨a, v⟩ := first
    rw [bindArguments]
    split
    · exact (Limited.store _ v).bind fun _ => ih
    · refine Limited.get.bind fun s => ?_
      split
      · apply Limited.bind
        · apply Limited.modify
          intro s
          rfl
        · intro _
          exact ih
      · exact (f.limited_report limit _).bind fun _ => ih

theorem limited_exec (op : Operation) (arg : Option Operand) :
    Limited (σ := σ) limit (f.exec op arg) := by
  apply Limited.bind (f.limited_currentScope limit)
  intro scope
  split
  · exact f.limited_report limit _
  · dsimp only
    split
    · split
      · exact .pure ()
      · exact .emitAll _
      · exact f.limited_report limit _
    · exact f.limited_report limit _

theorem limited_debug (index : Nat) (value : Option Operand) (compare : Option String) :
    Limited (σ := σ) limit (f.debug index value compare) := by
  apply Limited.bind (f.limited_currentScope limit)
  intro scope
  apply Limited.bind Limited.get
  intro s
  split
  · split
    · exact .fire _
    · exact .pure ()
  · exact .pure ()

section Calls

variable {limit} {enter : Enter σ} (henter : ∀ u site {bind : Run σ Unit}, Limited limit bind →
  Limited limit (enter u site bind))
include henter

theorem limited_call (c : Call) : Limited limit (f.call enter c) := by
  apply Limited.bind Limited.get
  intro s
  split
  · exact f.limited_report limit _
  · apply Limited.bind (f.limited_evaluate limit _)
    intro args
    apply henter
    exact f.limited_bindArguments limit _ args

theorem limited_act (index : Nat) (a : Action) : Limited limit (f.act enter index a) := by
  match a with
  | .literal text => exact .emit text
  | .variable source => exact f.limited_writeVariable limit source
  | .set target value => exact (f.limited_valueOrNull limit value).bind fun v => .store target v
  | .call c => exact f.limited_call henter c
  | .exec op arg => exact f.limited_exec limit op arg
  | .debug value compare => exact f.limited_debug limit index value compare

omit henter in
theorem limited_passes (header : Loop) {body : Run σ Unit} (h : Limited limit body)
    (items : List Value) : Limited limit (passes header body items) := by
  induction items with
  | nil => exact .pure ()
  | cons v rest ih =>
    apply Limited.bind (.store _ v)
    intro _
    apply Limited.bind (.store _ _)
    intro _
    apply Limited.bind h
    intro _
    exact ih

theorem limited_walk (index : Nat) (is : List Instr) : Limited limit (f.walk enter index is) := by
  match is with
  | [] =>
    rw [walk_nil]
    exact .pure ()
  | .action a :: rest =>
    rw [walk_action]
    exact (f.limited_act henter index a).bind fun _ => limited_walk (index + 1) rest
  | .branch _ cond next stop :: rest =>
    rw [walk_branch]
    apply Limited.bind (f.limited_condition limit cond)
    intro holds
    split
    · exact (limited_walk _ _).bind fun _ => limited_walk _ _
    · exact limited_walk _ _
  | .otherwise :: rest =>
    rw [walk_otherwise]
    exact limited_walk _ _
  | .endLoop :: rest =>
    rw [walk_endLoop]
    exact limited_walk _ _
  | .loop header stop :: rest =>
    rw [walk_loop]
    exact (f.limited_elements limit _).bind fun items =>
      (limited_passes header (limited_walk _ _) items).bind fun _ => limited_walk _ _
termination_by is.length
decreasing_by
  all_goals simp only [List.length_cons, List.length_take, List.length_drop]
  all_goals omega

end Calls

end Frame

/-- A template that only writes what the sink takes either ends or exceeds the call depth. -/
theorem limited_runTemplate (w : World) (o : RunOptions) (depth : Nat) (chain : List String)
    (t : Template) : Run.Limited (σ := σ) o.maxDepth (runTemplate w o depth chain t) := by
  induction depth generalizing chain t with
  | zero =>
    rw [runTemplate_zero]
    refine Frame.limited_walk _ ?_ 0 t.instrs
    intro u site bind hbind
    exact .exceeded _
  | succ depth ih =>
    rw [runTemplate_succ]
    refine Frame.limited_walk _ ?_ 0 t.instrs
    intro u site bind hbind
    apply Run.Limited.within
    apply Run.Limited.bind hbind
    intro _
    exact ih _ u

end

/-- Text in memory takes all that is written unless its room is bounded. -/
theorem TextSink.acceptsAll {sink : TextSink} (h : sink.room = none) : Sink.AcceptsAll sink := by
  intro texts text
  induction texts generalizing sink with
  | nil =>
    change (sink.write text).2 = true
    rw [write, h]
  | cons first texts ih =>
    have hroom : (sink.write first).1.room = none := by
      rw [write, h]
    exact ih hroom

end TemplateEngine

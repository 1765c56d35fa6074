import TemplateEngine.Proofs.Lockstep.Pairing

/-! Runs that note their calls. A note tells which template was running, which of its calls it came
to and what that call found; taking notes changes nothing else. -/
namespace TemplateEngine

/-- A call that is about to be made, and the callee that it finds. -/
structure CallNote where
  caller : Template
  call : Call
  found : Except DataError Template

/-- A sink beside the notes of the calls of a run into it, in their order. -/
structure Noted (σ : Type) where
  sink : σ
  notes : List CallNote := []

namespace Noted

variable {σ : Type}

instance [Sink σ] : Sink (Noted σ) where
  write s text :=
    let (sink, taken) := Sink.write s.sink text
    ({ s with sink }, taken)

def note (n : CallNote) : Run (Noted σ) Unit :=
  modify fun s => { s with sink := { s.sink with notes := s.sink.notes ++ [n] } }

end Noted

namespace Frame

variable {σ : Type} [Sink σ] (f : Frame)

/-- A call that is noted before it is made. -/
def notedCall (enter : Enter (Noted σ)) (c : Call) : Run (Noted σ) Unit := do
  Noted.note ⟨f.template, c, f.callee (← get).context c.callee⟩
  f.call enter c

def notedAct (enter : Enter (Noted σ)) (index : Nat) : Action → Run (Noted σ) Unit
  | .call c => f.notedCall enter c
  | a => f.act enter index a

/-- The machine with notes. -/
def notedWalker (enter : Enter (Noted σ)) : Walker (Noted σ) :=
  { f.walker enter with act := f.notedAct enter }

end Frame

section

variable {σ : Type} [Sink σ] (w : World) (o : RunOptions)

def runNotedTemplate : (depth : Nat) → (chain : List String) → Template → Run (Noted σ) Unit :=
  runTemplateBy Run.within (fun t enter => (Frame.notedWalker ⟨w, o, t⟩ enter).walk 0 t.instrs)
    o.maxDepth

/-- Runs a template and notes all calls, in a context that was made for it. -/
def runNoted (t : Template) (c : Context) (sink : σ) : Outcome (Noted σ) :=
  .inContext (runNotedTemplate w o o.maxDepth [t.name] t) t c ⟨sink, []⟩

end

/-- A call that some run can come to in this world: it is one of the caller's instructions, and what
it found is what it finds in some context. -/
structure CallNote.Made (w : World) (n : CallNote) : Prop where
  instr : .action (.call n.call) ∈ n.caller.instrs
  found : ∃ o k, n.found = Frame.callee ⟨w, o, n.caller⟩ k n.call.callee

section

variable {σ α β γ δ : Type} {w : World} {A : α → β → Prop} {B : γ → δ → Prop}

/-- A part of a run beside the same part with notes, each of which is of a call that it can come
to. -/
def NotesCalls (w : World) (A : α → β → Prop) (m : Run σ α) (m' : Run (Noted σ) β) : Prop :=
  ∀ (s : RunState σ) (notes : List CallNote), ∃ more result,
    let after := (m.run.run s).2
    m'.run.run { s with sink := ⟨s.sink, notes⟩ } =
        (result, { after with sink := ⟨after.sink, notes ++ more⟩ }) ∧
      Agree A (m.run.run s).1 result ∧ ∀ n ∈ more, n.Made w

namespace NotesCalls

/-- A part that makes no calls. -/
theorem plain {m : Run σ α} {m' : Run (Noted σ) β}
    (h : ∀ (s : RunState σ) (notes : List CallNote), ∃ result,
      let after := (m.run.run s).2
      m'.run.run { s with sink := ⟨s.sink, notes⟩ } =
          (result, { after with sink := ⟨after.sink, notes⟩ }) ∧
        Agree A (m.run.run s).1 result) :
    NotesCalls w A m m' := by
  intro s notes
  obtain ⟨result, hrun, hagree⟩ := h s notes
  refine ⟨[], result, ?_, hagree, List.forall_mem_nil _⟩
  rw [List.append_nil]
  exact hrun

theorem bind {m : Run σ α} {m' : Run (Noted σ) β} {f : α → Run σ γ} {f' : β → Run (Noted σ) δ}
    (hm : NotesCalls w A m m') (hf : ∀ a b, A a b → NotesCalls w B (f a) (f' b)) :
    NotesCalls w B (m >>= f) (m' >>= f') := by
  intro s notes
  obtain ⟨more, result, hrun, hagree, hmade⟩ := hm s notes
  rw [Run.run_bind, Run.run_bind, hrun]
  generalize m.run.run s = r at hagree ⊢
  obtain ⟨_, after⟩ := r
  cases hagree with
  | error e => exact ⟨more, .error e, rfl, .error e, hmade⟩
  | ok hab =>
    obtain ⟨rest, result', hrun', hagree', hmade'⟩ := hf _ _ hab after (notes ++ more)
    refine ⟨more ++ rest, result', ?_, hagree', List.forall_mem_append.mpr ⟨hmade, hmade'⟩⟩
    rw [← List.append_assoc]
    exact hrun'

theorem fire (e : DebugEvent) :
    NotesCalls w Eq (Run.fire e : Run σ Unit) (Run.fire e : Run (Noted σ) Unit) :=
  .plain fun _ _ => ⟨_, rfl, .ok rfl⟩

/-- A note beside nothing. -/
theorem note {n : CallNote} (hn : n.Made w) {m : Run σ α} {m' : Run (Noted σ) β}
    (h : NotesCalls w A m m') : NotesCalls w A m (do Noted.note n; m') := by
  intro s notes
  obtain ⟨more, result, hrun, hagree, hmade⟩ := h s (notes ++ [n])
  refine ⟨n :: more, result, ?_, hagree, List.forall_mem_cons.mpr ⟨hn, hmade⟩⟩
  rw [List.append_assoc] at hrun
  exact hrun

variable [Sink σ]

theorem emit (text : String) :
    NotesCalls w Eq (Run.emit text : Run σ Unit) (Run.emit text : Run (Noted σ) Unit) := by
  apply plain
  intro s notes
  rw [Run.run_emit, Run.run_emit]
  exact ⟨_, rfl, .self fun _ _ => rfl⟩

def lockstep (w : World) : Lockstep σ (Noted σ) where
  contexts := Eq
  Rel := NotesCalls w
  pure h := .plain fun _ _ => ⟨_, rfl, .ok h⟩
  bind := .bind
  get h := fun s notes => h s { s with sink := ⟨s.sink, notes⟩ } rfl s notes
  put h := .plain fun _ _ => ⟨_, by subst h; rfl, .ok rfl⟩
  emit := .emit
  store _ _ := .plain fun _ _ => ⟨_, rfl, .ok rfl⟩

omit [Sink σ] in
theorem within {body : Run σ Unit} {body' : Run (Noted σ) Unit} (h : NotesCalls w Eq body body')
    (site : SiteId) (u : Template) :
    NotesCalls w Eq (Run.within site u body) (Run.within site u body') := by
  intro s notes
  obtain ⟨more, result, hrun, hagree, hmade⟩ := h { s with context := s.context.enter site u } notes
  refine ⟨more, result, ?_, hagree, hmade⟩
  rw [Run.run_within, Run.run_within]
  dsimp only at hrun ⊢
  rw [hrun]

section Walk

variable (w : World) (o : RunOptions) (t : Template)

theorem frames : (lockstep w).Frames (σ := σ) ⟨w, o, t⟩ ⟨w, o, t⟩ :=
  Lockstep.frames_of_eq rfl fire w rfl t

variable {enter : Enter σ} {enter' : Enter (Noted σ)}
  (henter : (lockstep w).Enters (fun _ => True) enter enter')
include henter

theorem act (index : Nat) {a : Action} (ha : .action a ∈ t.instrs) :
    NotesCalls w Eq (Frame.act ⟨w, o, t⟩ enter index a)
      (Frame.notedAct ⟨w, o, t⟩ enter' index a) := by
  have hcall (c : Call) : NotesCalls w Eq (Frame.call ⟨w, o, t⟩ enter c)
      (Frame.call ⟨w, o, t⟩ enter' c) := by
    refine Lockstep.call_self (frames w o t) ?_ (fun u site values => ?_) c
    · rintro k _ c rfl
      rfl
    · exact henter u site _ _ trivial
        (Lockstep.bindArguments_of_eq (L := lockstep w) rfl fire w rfl t u values)
  by_cases hmakes : ∃ c, a = .call c
  · obtain ⟨c, rfl⟩ := hmakes
    exact fun s notes => note ⟨ha, o, s.context, rfl⟩ (hcall c) s notes
  · have hplain : Frame.notedAct ⟨w, o, t⟩ enter' index a = Frame.act ⟨w, o, t⟩ enter' index a := by
      cases a with
      | call c => exact absurd ⟨c, rfl⟩ hmakes
      | _ => rfl
    rw [hplain]
    refine (lockstep w).act (Q := Eq) (frames w o t) ?_ index (Instr.alike_self fun _ _ => rfl)
    rintro c _ rfl
    exact hcall c

theorem walk : NotesCalls w Eq (Frame.walk ⟨w, o, t⟩ enter 0 t.instrs)
    ((Frame.notedWalker ⟨w, o, t⟩ enter').walk 0 t.instrs) := by
  have hframes := frames (σ := σ) w o t
  refine Lockstep.walkers (L := lockstep w) (R := fun a a' => a = a' ∧ .action a ∈ t.instrs) ?_
    (fun x => (hframes.operands x).condition hframes.report)
    (fun x => (hframes.operands x).elements hframes.report rfl) 0 ?_
  · rintro index a _ ⟨rfl, ha⟩
    exact act w o t henter index ha
  · exact List.forall₂_same.mpr fun i hi => Instr.beside_self fun a ha => ⟨rfl, ha ▸ hi⟩

omit henter in
theorem runTemplate (depth : Nat) (chain : List String) :
    NotesCalls w Eq (runTemplate w o depth chain t : Run σ Unit)
      (runNotedTemplate w o depth chain t) :=
  (lockstep w).runTemplateBy (fun t _ _ _ henter => walk w o t henter)
    (fun _ => .plain fun _ _ => ⟨_, rfl, .error _⟩) (fun site u _ _ _ h => within h site u) depth
    chain trivial

end Walk

end NotesCalls

/-- A run and the same run with notes. -/
structure Outcome.NotedAs (w : World) (r : Outcome σ) (n : Outcome (Noted σ)) : Prop where
  result : n.result = r.result
  context : n.context = r.context
  events : n.events = r.events
  sink : n.sink.sink = r.sink
  made : ∀ note ∈ n.sink.notes, note.Made w

theorem run_noted [Sink σ] (w : World) (o : RunOptions) (t : Template) (c : Context) (sink : σ) :
    (run w o t c sink).NotedAs w (runNoted w o t c sink) := by
  cases hfor : c.isFor t with
  | false =>
    simp only [run, runNoted, Outcome.inContext, hfor, Bool.false_eq_true, if_false]
    exact ⟨rfl, rfl, rfl, rfl, List.forall_mem_nil _⟩
  | true =>
    simp only [run, runNoted, Outcome.inContext, hfor, if_true]
    obtain ⟨notes, result, hrun, hagree, hmade⟩ :=
      NotesCalls.runTemplate (σ := σ) w o t o.maxDepth [t.name] ⟨c, sink, []⟩ []
    dsimp only at hrun
    rw [hrun]
    exact ⟨hagree.eq.symm, rfl, rfl, rfl, hmade⟩

end

end TemplateEngine

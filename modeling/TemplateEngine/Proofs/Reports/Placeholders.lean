import TemplateEngine.Compile.Basic
import TemplateEngine.Proofs.Reports.Machine
import TemplateEngine.Proofs.Termination.Errors
import TemplateEngine.Proofs.Writing.Prefix

/-! Runs with placeholders and without. A run that only marks where a failure was reported stands
between the two: they write what it wrote, the one with a placeholder for each mark, the other with
nothing. -/
namespace TemplateEngine

namespace Reporting

section

variable {σ τ : Type} [Sink σ] [Sink τ] {L : Lockstep σ τ} (hcontexts : L.contexts = Eq)
  {report : Reporter σ} {report' : Reporter τ} (hreport : ∀ e, L.Rel Eq (report e) (report' e))
include hcontexts hreport

theorem attempt_same {α : Type} (default : α) (ask : Context → Except DataError α) :
    L.Rel Eq (Run.attempt report default ask) (Run.attempt report' default ask) := by
  refine Lockstep.attempt hreport default fun k k' hk => ?_
  rw [hcontexts] at hk
  rw [hk]

variable (w : World) {o o' : RunOptions} (t : Template)

theorem evaluate_lockstep (args : List Argument) :
    L.Rel Eq (evaluate report ⟨w, o, t⟩ args) (evaluate report' ⟨w, o', t⟩ args) := by
  induction args with
  | nil => exact L.pure rfl
  | cons a rest ih =>
    apply L.bind (attempt_same hcontexts hreport _ _)
    rintro v _ rfl
    apply L.bind ih
    rintro values _ rfl
    exact L.pure rfl

theorem bindArguments_lockstep (u : Template) (values : List (Argument × Value)) :
    L.Rel Eq (bindArguments report u values) (bindArguments report' u values) := by
  induction values with
  | nil => exact L.pure rfl
  | cons x rest ih =>
    apply L.bind (attempt_same hcontexts hreport _ _)
    rintro context _ rfl
    cases context with
    | none => exact ih
    | some context => exact L.bind (L.put (by rw [hcontexts])) fun _ _ _ => ih

variable (hfire : ∀ e, L.Rel Eq (Run.fire e) (Run.fire e)) {enter : Enter σ} {enter' : Enter τ}
  (henter : L.Enters (fun _ => True) enter enter')
include henter

theorem call_lockstep (c : Call) :
    L.Rel Eq (call report ⟨w, o, t⟩ enter c) (call report' ⟨w, o', t⟩ enter' c) := by
  have hcallee (k : Context) :
      Frame.callee ⟨w, o', t⟩ k c.callee = Frame.callee ⟨w, o, t⟩ k c.callee := by
    cases c.callee <;> rfl
  simp only [call, hcallee]
  apply L.bind (attempt_same hcontexts hreport _ _)
  rintro callee _ rfl
  cases callee with
  | none => exact L.pure rfl
  | some u =>
    apply L.bind (evaluate_lockstep hcontexts hreport w t c.args)
    rintro values _ rfl
    exact henter u c.site _ _ trivial (bindArguments_lockstep hcontexts hreport u values)

include hfire

theorem act_lockstep (index : Nat) (a : Action) :
    L.Rel Eq (act report ⟨w, o, t⟩ enter index a) (act report' ⟨w, o', t⟩ enter' index a) := by
  match a with
  | .literal text => exact L.emit text
  | .variable source =>
    apply L.bind (attempt_same hcontexts hreport _ _)
    rintro texts _ rfl
    exact Lockstep.emitAll texts
  | .set target value =>
    apply L.bind (attempt_same hcontexts hreport _ _)
    rintro v _ rfl
    exact L.store target v
  | .call c => exact call_lockstep hcontexts hreport w t henter c
  | .exec op arg =>
    apply L.bind (attempt_same hcontexts hreport _ _)
    rintro texts _ rfl
    exact Lockstep.emitAll texts
  | .debug value compare =>
    refine Lockstep.debug_of_fire ?_ rfl ?_ hfire index value compare
    · rw [hcontexts]
      rintro k _ rfl
      rfl
    · rw [hcontexts]
      rintro k _ rfl
      rfl

theorem walk_lockstep (index : Nat) (is : List Instr) :
    L.Rel Eq (walk report ⟨w, o, t⟩ enter index is) (walk report' ⟨w, o', t⟩ enter' index is) := by
  refine Lockstep.walkers (R := Eq) ?_ (fun x => attempt_same hcontexts hreport _ _)
    (fun x => attempt_same hcontexts hreport _ _) index
    (List.forall₂_same.mpr fun i _ => Instr.beside_self fun a _ => rfl)
  rintro index a _ rfl
  exact act_lockstep hcontexts hreport w t hfire henter index a

omit henter in
theorem runTemplate_lockstep (hlimit : o.maxDepth = o'.maxDepth)
    (hrefuse : ∀ chain, L.Rel (Eq : Unit → Unit → Prop) (throw (.recursionLimit o.maxDepth chain))
      (throw (.recursionLimit o.maxDepth chain)))
    (hwithin : ∀ site u {body : Run σ Unit} {body' : Run τ Unit}, L.Rel Eq body body' →
      L.Rel Eq (Run.within site u body) (Run.within site u body'))
    (depth : Nat) (chain : List String) :
    L.Rel Eq (runTemplate report w o depth chain t) (runTemplate report' w o' depth chain t) := by
  unfold runTemplate
  rw [← hlimit]
  exact L.runTemplateBy
    (fun t _ _ _ henter => walk_lockstep hcontexts hreport w t hfire henter 0 t.instrs) hrefuse
    (fun site u _ _ _ h => hwithin site u h) depth chain trivial

end

end Reporting

/-- Something that is written, or a mark where a failure was reported. -/
inductive Written where
  | text (piece : String)
  | failure (e : DataError)

/-- What is written in the end, where marks are placeholders or nothing. -/
def Written.shown? (placeholders : Bool) : Written → Option String
  | .text piece => some piece
  | .failure e => if placeholders then some e.placeholder else none

/-- Takes all that is written, with marks in between. -/
structure Marked where
  written : List Written := []

namespace Marked

instance : Sink Marked := ⟨fun m text => (⟨m.written ++ [.text text]⟩, true)⟩

/-- Leaves a mark. -/
def mark : Reporter Marked :=
  fun e => modify fun s => { s with sink := ⟨s.sink.written ++ [.failure e]⟩ }

def shown (placeholders : Bool) (m : Marked) : Transcript :=
  ⟨m.written.filterMap (Written.shown? placeholders)⟩

end Marked

/-- A part of a run that leaves marks, and that part with something or nothing written for them. -/
def Shows {α β : Type} (placeholders : Bool) (A : α → β → Prop) (m : Run Marked α)
    (m' : Run Transcript β) : Prop :=
  ∀ s, let after := (m.run.run s).2
    Agree A (m.run.run s).1 (m'.run.run { s with sink := s.sink.shown placeholders }).1 ∧
      (m'.run.run { s with sink := s.sink.shown placeholders }).2 =
        { after with sink := after.sink.shown placeholders }

namespace Shows

variable {α β γ δ : Type} {placeholders : Bool} {A : α → β → Prop} {B : γ → δ → Prop}

theorem bind {m : Run Marked α} {m' : Run Transcript β} {f : α → Run Marked γ}
    {f' : β → Run Transcript δ} (hm : Shows placeholders A m m')
    (hf : ∀ a b, A a b → Shows placeholders B (f a) (f' b)) :
    Shows placeholders B (m >>= f) (m' >>= f') := by
  intro s
  obtain ⟨hagree, hafter⟩ := hm s
  rw [Run.run_bind, Run.run_bind]
  generalize m.run.run s = r, m'.run.run _ = r' at hagree hafter ⊢
  obtain ⟨result, after⟩ := r
  obtain ⟨result', _⟩ := r'
  subst hafter
  cases hagree with
  | error e => exact ⟨.error e, rfl⟩
  | ok hab => exact hf _ _ hab after

theorem emit (text : String) :
    Shows placeholders Eq (Run.emit text : Run Marked Unit) (Run.emit text) := by
  intro s
  refine ⟨.ok rfl, ?_⟩
  have hshown : Marked.shown placeholders ⟨s.sink.written ++ [.text text]⟩ =
      ⟨(s.sink.shown placeholders).texts ++ [text]⟩ := by
    simp [Marked.shown, Written.shown?]
  rw [Run.run_emit, Run.run_emit]
  exact congrArg (RunState.mk s.context · s.events) hshown.symm

theorem mark (e : DataError) :
    Shows placeholders Eq (Marked.mark e) (Run.report placeholders e) := by
  intro s
  cases placeholders with
  | false =>
    have hshown : Marked.shown false ⟨s.sink.written ++ [.failure e]⟩ = s.sink.shown false := by
      simp [Marked.shown, Written.shown?]
    exact ⟨.ok rfl, congrArg (RunState.mk s.context · s.events) hshown.symm⟩
  | true =>
    have hshown : Marked.shown true ⟨s.sink.written ++ [.failure e]⟩ =
        ⟨(s.sink.shown true).texts ++ [e.placeholder]⟩ := by
      simp [Marked.shown, Written.shown?]
    exact ⟨.ok rfl, congrArg (RunState.mk s.context · s.events) hshown.symm⟩

def lockstep (placeholders : Bool) : Lockstep Marked Transcript where
  contexts := Eq
  Rel := Shows placeholders
  pure h := fun _ => ⟨.ok h, rfl⟩
  bind := .bind
  get h := fun s => h s { s with sink := s.sink.shown placeholders } rfl s
  put h := fun _ => ⟨.ok rfl, by subst h; rfl⟩
  emit := .emit
  store _ _ := fun _ => ⟨.ok rfl, rfl⟩

theorem within {body : Run Marked Unit} {body' : Run Transcript Unit}
    (h : Shows placeholders Eq body body') (site : SiteId) (u : Template) :
    Shows placeholders Eq (Run.within site u body) (Run.within site u body') := by
  intro s
  obtain ⟨hagree, hafter⟩ := h { s with context := s.context.enter site u }
  rw [Run.run_within, Run.run_within]
  refine ⟨hagree, ?_⟩
  dsimp only at hafter ⊢
  rw [hafter]

theorem runTemplate (w : World) {o o' : RunOptions} (hlimit : o.maxDepth = o'.maxDepth)
    (depth : Nat) (chain : List String) (t : Template) :
    Shows o'.placeholders Eq (Reporting.runTemplate Marked.mark w o depth chain t)
      (runTemplate w o' depth chain t) := by
  rw [Reporting.runTemplate_eq]
  exact Reporting.runTemplate_lockstep (L := lockstep o'.placeholders) rfl mark w t
    (fun _ _ => ⟨.ok rfl, rfl⟩) hlimit (fun _ _ => ⟨.error _, rfl⟩)
    (fun site u _ _ hbody => within hbody site u) depth chain

end Shows

/-- A run that leaves a mark for each failure that it meets. -/
def runMarked (w : World) (o : RunOptions) (t : Template) (c : Context) : Outcome Marked :=
  Reporting.run Marked.mark w o t c {}

/-- Into a transcript a run writes what it wrote with marks, with placeholders or nothing for them.
-/
theorem run_transcript (w : World) (o o' : RunOptions) (hlimit : o.maxDepth = o'.maxDepth)
    (t : Template) (c : Context) :
    let marked := runMarked w o t c
    run w o' t c ({} : Transcript) = { marked with sink := marked.sink.shown o'.placeholders } := by
  intro marked
  cases hfor : c.isFor t with
  | false =>
    simp only [marked, runMarked, Reporting.run, run, Outcome.inContext, hfor, Bool.false_eq_true,
      if_false]
    rfl
  | true =>
    simp only [marked, runMarked, Reporting.run, run, Outcome.inContext, hfor, if_true]
    have hshows := Shows.runTemplate w hlimit o'.maxDepth [t.name] t ⟨c, {}, []⟩
    obtain ⟨hagree, hafter⟩ := hshows
    rw [hlimit, Outcome.ofRun, Outcome.ofRun, hagree.eq]
    exact congrArg (fun after => Outcome.mk _ after.context after.sink after.events) hafter

theorem Sink.AcceptsAll.offer {σ : Type} [Sink σ] {sink : σ} (h : AcceptsAll sink)
    (texts : List String) : (Sink.offer sink texts).2 = true := by
  induction texts generalizing sink with
  | nil => rfl
  | cons text rest ih =>
    rw [Sink.offer_cons, if_pos (h.taken text)]
    exact ih (h.write text)

/-- Without placeholders a run does the same and writes the same, but for the placeholders. There is
one run that reports by leaving marks: with placeholders a run writes what that one writes and a
placeholder for each mark, and without them what that one writes and nothing for the marks. What the
program itself says is written and not marked, whatever it is. -/
theorem run_placeholders {σ τ : Type} [Sink σ] [Sink τ] (w : World) (o : RunOptions) (t : Template)
    (c : Context) {sink : σ} {sink' : τ} (hsink : Sink.AcceptsAll sink)
    (hsink' : Sink.AcceptsAll sink') :
    let normal := run w { o with placeholders := true } t c sink
    let quiet := run w { o with placeholders := false } t c sink'
    let written := (runMarked w o t c).sink.written
    normal.result = quiet.result ∧ normal.events = quiet.events ∧ normal.context = quiet.context ∧
      normal.sink = (Sink.offer sink (written.filterMap (Written.shown? true))).1 ∧
      quiet.sink = (Sink.offer sink' (written.filterMap (Written.shown? false))).1 ∧
      (∀ placeholders,
        (run w { o with placeholders } t c ({} : TextSink)).sink.text =
            String.join (written.filterMap (Written.shown? placeholders)) ∧
          run w { o with placeholders } t c sink =
            Reporting.run (Run.report placeholders) w { o with placeholders } t c sink) ∧
      ∀ (f : Frame) (enter : Enter Marked) (index : Nat) (text : String) (rest : List Instr),
        Reporting.walk Marked.mark f enter index (.action (.literal text) :: rest) = (do
          Run.emit text
          Reporting.walk Marked.mark f enter (index + 1) rest) := by
  intro normal quiet written
  have htranscript (placeholders : Bool) :=
    run_transcript w o { o with placeholders } rfl t c
  obtain ⟨hnormal, htaken, -⟩ := run_offer w { o with placeholders := true } t c sink
  obtain ⟨hquiet, htaken', -⟩ := run_offer w { o with placeholders := false } t c sink'
  obtain ⟨hresult, hcontext, hevents⟩ := htaken (hsink.offer _)
  obtain ⟨hresult', hcontext', hevents'⟩ := htaken' (hsink'.offer _)
  rw [htranscript] at hnormal hresult hcontext hevents hquiet hresult' hcontext' hevents'
  refine ⟨hresult.trans hresult'.symm, hevents.trans hevents'.symm, hcontext.trans hcontext'.symm,
    hnormal, hquiet, fun placeholders => ⟨?_, Reporting.run_eq w _ t c sink⟩, ?_⟩
  · rw [(run_unbounded w _ t c).2, htranscript]
    rfl
  · intro f enter index text rest
    rw [Reporting.walk, Walker.walk]
    rfl

/-- The name that the template does not know is noted either way, the value that is missing is not.
-/
theorem run_placeholders_unknown :
    let source := "a<&gone>b<&v>".toList
    ∃ p, compile "t" source { params := ["v"] } = .ok p ∧
      let t : Template := ⟨p, 0⟩
      let r (placeholders : Bool) := run {} { placeholders } t (.fresh t) ({} : TextSink)
      (r true).result = (r false).result ∧ (r true).context = (r false).context ∧
        (r true).sink.text = "a[?gone: unknown variable]b[?v: no value]" ∧
        (r false).sink.text = "a[?gone: unknown variable]b" := by
  intro source
  obtain ⟨p, hp⟩ : ∃ p, compile "t" source { params := ["v"] } = .ok p :=
    exists_of_isOk (by decide +kernel)
  refine ⟨p, hp, ?_⟩
  intro t r
  have haccepts : Sink.AcceptsAll ({} : TextSink) := TextSink.acceptsAll rfl
  obtain ⟨hresult, -, hcontext, -⟩ := run_placeholders {} {} t (.fresh t) haccepts haccepts
  have htexts : (compile "t" source { params := ["v"] }).toOption.map (fun p =>
      let r (placeholders : Bool) :=
        run {} { placeholders } ⟨p, 0⟩ (.fresh ⟨p, 0⟩) ({} : TextSink)
      ((r true).sink.text, (r false).sink.text)) =
        some ("a[?gone: unknown variable]b[?v: no value]", "a[?gone: unknown variable]b") := by
    decide +kernel
  rw [hp] at htexts
  obtain ⟨htext, htext'⟩ := Prod.mk.inj (Option.some.inj htexts)
  exact ⟨hresult, hcontext, htext, htext'⟩

end TemplateEngine

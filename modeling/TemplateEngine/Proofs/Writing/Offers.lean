import TemplateEngine.Proofs.Lockstep.Pairing

/-! What a run does with its sink. The texts that a run writes do not depend on the sink; they are
offered to it one after another until it refuses one, and that ends the run. -/
namespace TemplateEngine

/-- Takes all texts and keeps them apart. -/
structure Transcript where
  texts : List String := []

instance : Sink Transcript := ⟨fun t text => (⟨t.texts ++ [text]⟩, true)⟩

section

variable {τ : Type} [Sink τ]

/-- Writes texts one after another, up to the first one that is refused. -/
def Sink.offer (sink : τ) : List String → τ × Bool
  | [] => (sink, true)
  | text :: rest =>
    match Sink.write sink text with
    | (sink, true) => offer sink rest
    | (sink, false) => (sink, false)

theorem Sink.offer_append_of_taken {sink sink' : τ} {texts : List String}
    (h : offer sink texts = (sink', true)) (more : List String) :
    offer sink (texts ++ more) = offer sink' more := by
  induction texts generalizing sink with
  | nil =>
    cases h
    rfl
  | cons text rest ih =>
    rw [offer] at h
    rw [List.cons_append, offer]
    split at h
    · exact ih h
    · cases h

/-- After a refusal nothing more is written. -/
theorem Sink.offer_append_of_refused {sink sink' : τ} {texts : List String}
    (h : offer sink texts = (sink', false)) (more : List String) :
    offer sink (texts ++ more) = (sink', false) := by
  induction texts generalizing sink with
  | nil => cases h
  | cons text rest ih =>
    rw [offer] at h
    rw [List.cons_append, offer]
    split at h
    · exact ih h
    · exact h

/-- What a part of a run into a sink answers and leaves behind: `result` and the state `after` it,
if no text is refused; else it ends there, and all that was written is what the sink has then. -/
inductive Follows {β : Type} (sink : τ) (texts : List String) (result : Except RunError β)
    (after : RunState Transcript) : Except RunError β × RunState τ → Prop where
  | taken {sink' : τ} : Sink.offer sink texts = (sink', true) →
    Follows sink texts result after (result, { after with sink := sink' })
  | refused {s : RunState τ} : Sink.offer sink texts = (s.sink, false) →
    Follows sink texts result after (.error .output, s)

/-- A part of a run writes the same texts into every sink, as far as they are taken. -/
def Offers {α β : Type} (A : α → β → Prop) (m : Run Transcript α) (m' : Run τ β) : Prop :=
  ∀ (s : RunState Transcript) (sink : τ), ∃ texts result,
    (m.run.run s).2.sink.texts = s.sink.texts ++ texts ∧ Agree A (m.run.run s).1 result ∧
      Follows sink texts result (m.run.run s).2 (m'.run.run { s with sink })

namespace Offers

variable {α β γ δ : Type} {A : α → β → Prop} {B : γ → δ → Prop}

/-- A part that writes nothing. -/
theorem silent {m : Run Transcript α} {m' : Run τ β}
    (h : ∀ (s : RunState Transcript) (sink : τ), ∃ result, (m.run.run s).2.sink = s.sink ∧
      Agree A (m.run.run s).1 result ∧
      m'.run.run { s with sink } = (result, { (m.run.run s).2 with sink })) :
    Offers A m m' := by
  intro s sink
  obtain ⟨result, hsink, hresult, hrun⟩ := h s sink
  refine ⟨[], result, ?_, hresult, ?_⟩
  · rw [hsink, List.append_nil]
  · rw [hrun]
    exact .taken rfl

theorem bind {m : Run Transcript α} {m' : Run τ β} {k : α → Run Transcript γ} {k' : β → Run τ δ}
    (hm : Offers A m m') (hk : ∀ a b, A a b → Offers B (k a) (k' b)) :
    Offers B (m >>= k) (m' >>= k') := by
  intro s sink
  obtain ⟨texts, result', htexts, hagree, hfollows⟩ := hm s sink
  rw [Run.run_bind, Run.run_bind]
  generalize m.run.run s = r, m'.run.run { s with sink } = r' at htexts hagree hfollows ⊢
  obtain ⟨result, s₁⟩ := r
  cases hagree with
  | error e =>
    refine ⟨texts, .error e, htexts, .error e, ?_⟩
    cases hfollows with
    | taken htaken => exact .taken htaken
    | refused hrefused => exact .refused hrefused
  | @ok a b hab =>
    have hmore (sink' : τ) : ∃ more result', ((k a).run.run s₁).2.sink.texts =
        s.sink.texts ++ (texts ++ more) ∧ Agree B ((k a).run.run s₁).1 result' ∧
          Follows sink' more result' ((k a).run.run s₁).2
            ((k' b).run.run { s₁ with sink := sink' }) := by
      obtain ⟨more, result', hmore, hrest⟩ := hk a b hab s₁ sink'
      rw [htexts, List.append_assoc] at hmore
      exact ⟨more, result', hmore, hrest⟩
    cases hfollows with
    | @taken sink' htaken =>
      obtain ⟨more, result', hmore, hagree', hfollows'⟩ := hmore sink'
      have happend := Sink.offer_append_of_taken htaken more
      refine ⟨texts ++ more, result', hmore, hagree', ?_⟩
      dsimp only
      generalize (k' b).run.run _ = r' at hfollows' ⊢
      cases hfollows' with
      | taken htaken' => exact .taken (happend.trans htaken')
      | refused hrefused => exact .refused (happend.trans hrefused)
    | refused hrefused =>
      -- The run into the sink has ended; the other one goes on, and only adds texts.
      obtain ⟨more, result', hmore, hagree', -⟩ := hmore sink
      exact ⟨texts ++ more, result', hmore, hagree',
        .refused (Sink.offer_append_of_refused hrefused more)⟩

theorem emit (text : String) : Offers Eq (Run.emit text) (Run.emit text : Run τ Unit) := by
  intro s sink
  refine ⟨[text], .ok (), rfl, .ok rfl, ?_⟩
  rw [Run.run_emit, Run.run_emit]
  cases htaken : (Sink.write sink text).2 with
  | true =>
    apply Follows.taken
    rw [Sink.offer, ← Prod.eta (Sink.write sink text), htaken]
    rfl
  | false =>
    apply Follows.refused
    rw [Sink.offer, ← Prod.eta (Sink.write sink text), htaken]

theorem within {body : Run Transcript Unit} {body' : Run τ Unit} (h : Offers Eq body body')
    (site : SiteId) (u : Template) :
    Offers Eq (Run.within site u body) (Run.within site u body') := by
  intro s sink
  obtain ⟨texts, result, htexts, hagree, hfollows⟩ :=
    h { s with context := s.context.enter site u } sink
  refine ⟨texts, result, htexts, hagree, ?_⟩
  rw [Run.run_within, Run.run_within]
  dsimp only
  generalize body'.run.run _ = r' at hfollows ⊢
  cases hfollows with
  | taken htaken => exact .taken htaken
  | refused hrefused => exact .refused hrefused

end Offers

/-- A run that keeps all texts apart beside a run into some sink. -/
def Offers.lockstep (τ : Type) [Sink τ] : Lockstep Transcript τ where
  contexts k k' := k = k'
  Rel := Offers
  pure h := .silent fun _ _ => ⟨_, rfl, .ok h, rfl⟩
  bind := .bind
  get h := fun s sink => h s { s with sink } rfl s sink
  put h := .silent fun _ _ => ⟨_, rfl, .ok rfl, by subst h; rfl⟩
  emit := .emit
  store slot v := .silent fun _ _ => ⟨_, rfl, .ok rfl, rfl⟩

theorem Offers.throw {α β : Type} {A : α → β → Prop} (e : RunError) :
    Offers A (throw e) (throw e : Run τ β) :=
  .silent fun _ _ => ⟨_, rfl, .error e, rfl⟩

theorem Offers.fire (e : DebugEvent) : Offers Eq (Run.fire e) (Run.fire e : Run τ Unit) :=
  .silent fun _ _ => ⟨_, rfl, .ok rfl, rfl⟩

def Offers.pairing (w : World) (o : RunOptions) :
    Pairing w w o o (Run.within : Within Transcript) (Run.within : Within τ) :=
  .ofEq w o (Offers.lockstep τ) rfl Offers.fire (fun _ _ => Offers.throw _)
    (fun site u _ _ hbody => Offers.within hbody site u)

/-- Into any sink a run writes the texts that it writes into a transcript, up to the first one that
is refused. If none is, it ends in the same way and leaves the same behind. -/
theorem run_offer (w : World) (o : RunOptions) (t : Template) (c : Context) (sink : τ) :
    let whole := run w o t c ({} : Transcript)
    let r := run w o t c sink
    r.sink = (Sink.offer sink whole.sink.texts).1 ∧
      ((Sink.offer sink whole.sink.texts).2 = true →
        r.result = whole.result ∧ r.context = whole.context ∧ r.events = whole.events) ∧
      ((Sink.offer sink whole.sink.texts).2 = false → r.result = .error .output) := by
  intro whole r
  cases hfor : c.isFor t with
  | false =>
    have hwhole :
        whole = .ofRun (.error (.contextMismatch t.name t.id c.template), ⟨c, {}, []⟩) := by
      simp only [whole, run, Outcome.inContext, hfor, Bool.false_eq_true, if_false]
    have hr : r = .ofRun (.error (.contextMismatch t.name t.id c.template), ⟨c, sink, []⟩) := by
      simp only [r, run, Outcome.inContext, hfor, Bool.false_eq_true, if_false]
    rw [hwhole, hr]
    exact ⟨rfl, fun _ => ⟨rfl, rfl, rfl⟩, nofun⟩
  | true =>
    have hwhole : whole = .ofRun ((runTemplate w o o.maxDepth [t.name] t).run.run ⟨c, {}, []⟩) := by
      simp only [whole, run, Outcome.inContext, hfor, if_true]
    have hr : r = .ofRun ((runTemplate w o o.maxDepth [t.name] t).run.run ⟨c, sink, []⟩) := by
      simp only [r, run, Outcome.inContext, hfor, if_true]
    have hruns : Offers Eq (runTemplate w o o.maxDepth [t.name] t)
        (runTemplate w o o.maxDepth [t.name] t : Run τ Unit) :=
      (Offers.pairing w o).runTemplateWith rfl o.maxDepth [t.name] (t := t) ⟨rfl, trivial⟩
    obtain ⟨texts, result, htexts, hagree, hfollows⟩ := hruns ⟨c, {}, []⟩ sink
    rw [hwhole, hr]
    obtain rfl := hagree.eq
    dsimp only [Outcome.ofRun]
    rw [htexts, List.nil_append]
    dsimp only at hfollows
    generalize (runTemplate w o o.maxDepth [t.name] t).run.run ⟨c, sink, []⟩ = after at hfollows ⊢
    cases hfollows with
    | taken htaken =>
      rw [htaken]
      exact ⟨rfl, fun _ => ⟨rfl, rfl, rfl⟩, nofun⟩
    | refused hrefused =>
      rw [hrefused]
      exact ⟨rfl, nofun, fun _ => rfl⟩

end

end TemplateEngine

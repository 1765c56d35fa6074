import TemplateEngine.Compile.Basic
import TemplateEngine.Proofs.Depth.Stack
import TemplateEngine.Proofs.Writing.Offers

/-! Runs under different limits for the depth of calls. A run that is refused a call would have gone
on where it ended, and a run that is not is the same under every higher limit. -/
namespace TemplateEngine

section

variable {σ α β γ δ : Type} [Sink σ] {A : α → β → Prop} {B : γ → δ → Prop}

/-- What a part of a run answers and leaves behind is that of having written more texts to `sink`,
up to one that was refused. -/
def Onward (sink : σ) (r : Except RunError α × RunState σ) : Prop :=
  ∃ texts taken, Sink.offer sink texts = (r.2.sink, taken) ∧
    (taken = false → r.1 = .error .output)

namespace Onward

theorem refl (result : Except RunError α) (s : RunState σ) : Onward s.sink (result, s) :=
  ⟨[], true, rfl, nofun⟩

theorem bind {sink : σ} {m : Run σ α} {f : α → Run σ γ} {s : RunState σ}
    (hm : Onward sink (m.run.run s))
    (hf : ∀ a after, (m.run.run s).1 = .ok a → Onward after.sink ((f a).run.run after)) :
    Onward sink ((m >>= f).run.run s) := by
  obtain ⟨texts, taken, hoffer, hrefused⟩ := hm
  rw [Run.run_bind]
  generalize m.run.run s = r at hoffer hrefused hf ⊢
  obtain ⟨result, after⟩ := r
  cases result with
  | error e =>
    refine ⟨texts, taken, hoffer, fun h => ?_⟩
    cases hrefused h
    rfl
  | ok a =>
    cases taken with
    | false => cases hrefused rfl
    | true =>
      obtain ⟨more, taken', hoffer', hrefused'⟩ := hf a after rfl
      exact ⟨texts ++ more, taken', (Sink.offer_append_of_taken hoffer more).trans hoffer',
        hrefused'⟩

theorem emit (text : String) (s : RunState σ) :
    Onward s.sink ((Run.emit text : Run σ Unit).run.run s) := by
  refine ⟨[text], (Sink.write s.sink text).2, ?_, ?_⟩
  · rw [Run.run_emit, Sink.offer, ← Prod.eta (Sink.write s.sink text)]
    cases (Sink.write s.sink text).2 <;> rfl
  · intro h
    rw [Run.run_emit, h]
    rfl

end Onward

/-- Under the lower limit a part of a run does what it does under the higher one, or it is refused a
call and the other goes on from there. -/
structure Outlasts (limit : Nat) (A : α → β → Prop) (m : Run σ α) (m' : Run σ β) : Prop where
  onward (s : RunState σ) : Onward s.sink (m'.run.run s)
  answer (s : RunState σ) (b : β) : (m'.run.run s).1 = .ok b → ∃ a, A a b
  cut (s : RunState σ) :
    Agree A (m.run.run s).1 (m'.run.run s).1 ∧ (m'.run.run s).2 = (m.run.run s).2 ∨
      (∃ chain, (m.run.run s).1 = .error (.recursionLimit limit chain)) ∧
        Onward (m.run.run s).2.sink (m'.run.run s)

namespace Outlasts

variable {limit : Nat}

theorem same {m : Run σ α} {m' : Run σ β} (honward : ∀ s, Onward s.sink (m'.run.run s))
    (h : ∀ s, Agree A (m.run.run s).1 (m'.run.run s).1 ∧ (m'.run.run s).2 = (m.run.run s).2) :
    Outlasts limit A m m' where
  onward := honward
  answer s b hb := by
    have hagree := (h s).1
    rw [hb] at hagree
    generalize (m.run.run s).1 = result at hagree
    cases hagree with
    | ok hab => exact ⟨_, hab⟩
  cut s := .inl (h s)

theorem bind {m : Run σ α} {m' : Run σ β} {f : α → Run σ γ} {f' : β → Run σ δ}
    (hm : Outlasts limit A m m') (hf : ∀ a b, A a b → Outlasts limit B (f a) (f' b)) :
    Outlasts limit B (m >>= f) (m' >>= f') where
  onward s := (hm.onward s).bind fun b after hb => by
    obtain ⟨a, hab⟩ := hm.answer s b hb
    exact (hf a b hab).onward after
  answer s d hd := by
    have hanswer := hm.answer s
    rw [Run.run_bind] at hd
    generalize m'.run.run s = r at hd hanswer
    obtain ⟨_ | b, after⟩ := r
    · cases hd
    · obtain ⟨a, hab⟩ := hanswer b rfl
      exact (hf a b hab).answer after d hd
  cut s := by
    obtain ⟨hagree, hafter⟩ | ⟨⟨chain, hchain⟩, honward⟩ := hm.cut s
    · rw [Run.run_bind, Run.run_bind]
      generalize m.run.run s = r, m'.run.run s = r' at hagree hafter ⊢
      obtain ⟨result, after⟩ := r
      obtain ⟨result', _⟩ := r'
      obtain rfl := hafter
      cases hagree with
      | error e => exact .inl ⟨.error e, rfl⟩
      | ok hab => exact (hf _ _ hab).cut _
    · have hrefused : (m >>= f).run.run s =
          (.error (.recursionLimit limit chain), (m.run.run s).2) := by
        rw [Run.run_bind]
        generalize m.run.run s = r at hchain ⊢
        obtain ⟨_, after⟩ := r
        cases hchain
        rfl
      rw [hrefused]
      refine .inr ⟨⟨chain, rfl⟩, honward.bind fun b after hb => ?_⟩
      obtain ⟨a, hab⟩ := hm.answer s b hb
      exact (hf a b hab).onward after

theorem within {body body' : Run σ Unit} (h : Outlasts limit Eq body body') (site : SiteId)
    (u : Template) : Outlasts limit Eq (Run.within site u body) (Run.within site u body') where
  onward s := h.onward { s with context := s.context.enter site u }
  answer _ b _ := ⟨b, rfl⟩
  cut s := by
    obtain ⟨hagree, hafter⟩ | hcut := h.cut { s with context := s.context.enter site u }
    · rw [Run.run_within, Run.run_within]
      dsimp only
      rw [hafter]
      exact .inl ⟨hagree, rfl⟩
    · exact .inr hcut

/-- A call that is made only under the higher limit. -/
theorem throw_refused {m : Run σ α} (h : ∀ s, Onward s.sink (m.run.run s)) (chain : List String) :
    Outlasts limit Eq (throw (.recursionLimit limit chain)) m where
  onward := h
  answer _ a _ := ⟨a, rfl⟩
  cut s := .inr ⟨⟨chain, rfl⟩, h s⟩

theorem throw (e : RunError) : Outlasts (σ := σ) limit A (throw e) (throw e) :=
  .same (fun s => .refl _ s) fun _ => ⟨.error e, rfl⟩

theorem fire (e : DebugEvent) : Outlasts (σ := σ) limit Eq (Run.fire e) (Run.fire e) :=
  .same (fun _ => ⟨[], true, rfl, nofun⟩) fun _ => ⟨.ok rfl, rfl⟩

def lockstep (limit : Nat) : Lockstep σ σ where
  contexts := Eq
  Rel := Outlasts limit
  pure h := .same (fun s => .refl _ s) fun _ => ⟨.ok h, rfl⟩
  bind := .bind
  get h := {
    onward s := (h s s rfl).onward s
    answer s := (h s s rfl).answer s
    cut s := (h s s rfl).cut s }
  put h := h ▸ .same (fun _ => ⟨[], true, rfl, nofun⟩) fun _ => ⟨.ok rfl, rfl⟩
  emit text := .same (Onward.emit text) fun _ => ⟨.self fun _ _ => rfl, rfl⟩
  store _ _ := .same (fun _ => ⟨[], true, rfl, nofun⟩) fun _ => ⟨.ok rfl, rfl⟩

theorem self (w : World) (o : RunOptions) (depth : Nat) (chain : List String) (t : Template) :
    Outlasts limit Eq (runTemplate w o depth chain t : Run σ Unit)
      (runTemplate w o depth chain t) := by
  have h := (Pairing.ofEq w o (lockstep limit : Lockstep σ σ) rfl fire (fun _ _ => throw _)
    fun site u _ _ hbody => within hbody site u).runTemplateWith rfl depth chain
      (t := t) ⟨rfl, trivial⟩
  exact h

/-- A template under two limits, where `extra` more calls can be nested under the higher one. -/
theorem runTemplate (w : World) {o o' : RunOptions} {extra : Nat}
    (hplaceholders : o.placeholders = o'.placeholders) (hlimit : o.maxDepth + extra = o'.maxDepth)
    (depth : Nat) (chain : List String) (t : Template) :
    Outlasts o.maxDepth Eq (runTemplate w o depth chain t : Run σ Unit)
      (runTemplate w o' (extra + depth) chain t) := by
  have hbind (t u : Template) (values : List (Argument × Value)) :
      Outlasts (σ := σ) o.maxDepth Eq (Frame.bindArguments ⟨w, o, t⟩ u values)
        (Frame.bindArguments ⟨w, o', t⟩ u values) :=
    (lockstep o.maxDepth).bindArguments_of_eq rfl fire w hplaceholders t u values
  induction depth generalizing chain t with
  | zero =>
    cases extra with
    | zero =>
      rw [runTemplate_zero, runTemplate_zero]
      refine (lockstep o.maxDepth).walk_of_eq rfl fire w hplaceholders t ?_ 0 t.instrs
      intro u site values
      rw [← hlimit]
      exact throw _
    | succ extra =>
      rw [runTemplate_zero, runTemplate_succ]
      refine (lockstep o.maxDepth).walk_of_eq rfl fire w hplaceholders t ?_ 0 t.instrs
      intro u site values
      have hbind' := (lockstep (σ := σ) o.maxDepth).bindArguments_of_eq rfl fire w (o := o') rfl t u
        values
      have hbody := hbind'.bind fun _ _ _ => self w o' extra (chain ++ [u.name]) u
      exact throw_refused (hbody.within site u).onward _
  | succ depth ih =>
    rw [runTemplate_succ, ← Nat.add_assoc, runTemplate_succ]
    refine (lockstep o.maxDepth).walk_of_eq rfl fire w hplaceholders t ?_ 0 t.instrs
    intro u site values
    refine within ((hbind t u values).bind fun _ _ _ => ?_) site u
    exact ih _ u

end Outlasts

/-- What can be read off a sink only grows by writing to it. -/
def Sink.Grows {ρ : Type} (seen : σ → List ρ) : Prop :=
  ∀ sink text, seen sink <+: seen (Sink.write sink text).1

theorem Sink.Grows.offer {ρ : Type} {seen : σ → List ρ} (h : Sink.Grows seen) (sink : σ)
    (texts : List String) : seen sink <+: seen (Sink.offer sink texts).1 := by
  induction texts generalizing sink with
  | nil => exact List.prefix_rfl
  | cons text rest ih =>
    have hwrite := h sink text
    rw [Sink.offer]
    split
    · next after hafter =>
      rw [hafter] at hwrite
      exact hwrite.trans (ih after)
    · next after hafter =>
      rw [hafter] at hwrite
      exact hwrite

theorem TextSink.grows : Sink.Grows fun s : TextSink => s.text.toList := by
  intro s piece
  change _ <+: (s.write piece).1.text.toList
  unfold TextSink.write
  split
  · simp
  · split <;> simp

/-- Under a higher limit a run is the same, or it goes on where it exceeded the lower one. -/
theorem run_outlasts (w : World) (o o' : RunOptions)
    (hplaceholders : o.placeholders = o'.placeholders) (hlimit : o.maxDepth ≤ o'.maxDepth)
    (t : Template) (c : Context) (sink : σ) :
    let r := run w o t c sink
    let r' := run w o' t c sink
    r' = r ∨ (∃ chain, r.result = .error (.recursionLimit o.maxDepth chain)) ∧
      ∃ texts, r'.sink = (Sink.offer r.sink texts).1 := by
  intro r r'
  cases hfor : c.isFor t with
  | false =>
    exact .inl (by simp only [r, r', run, Outcome.inContext, hfor, Bool.false_eq_true, if_false])
  | true =>
    obtain ⟨extra, hextra⟩ := Nat.exists_eq_add_of_le hlimit
    have houtlasts :=
      Outlasts.runTemplate (σ := σ) w hplaceholders hextra.symm o.maxDepth [t.name] t
    have hcut := houtlasts.cut ⟨c, sink, []⟩
    rw [Nat.add_comm extra, ← hextra] at hcut
    simp only [r, r', run, Outcome.inContext, hfor, if_true, Outcome.ofRun]
    obtain ⟨hagree, hafter⟩ | ⟨hchain, texts, taken, hoffer, -⟩ := hcut
    · exact .inl (by rw [hagree.eq, hafter])
    · exact .inr ⟨hchain, texts, by rw [hoffer]⟩

/-- The limit for the depth of calls only cuts a run short. A run that does not exceed it is the
same under every higher limit. One that does names the limit, the templates of the calls that were
active then and the one that was refused, and under a higher limit more is written after what it
wrote. All the time there are no more calls on the stack than the limit, and after each call,
however it ended, the stack is what it was before. -/
theorem run_maxDepth (w : World) (o : RunOptions) (t : Template) (c : Context) (sink : σ)
    {limit higher : Nat} (hlimit : limit ≤ higher) :
    let r := run w { o with maxDepth := limit } t c sink
    let r' := run w { o with maxDepth := higher } t c sink
    ((∀ n chain, r.result ≠ .error (.recursionLimit n chain)) → r' = r) ∧
      (∀ n chain, r.result = .error (.recursionLimit n chain) →
        n = limit ∧ chain.length = limit + 2 ∧ chain.head? = some t.name ∧
          (∃ texts, r'.sink = (Sink.offer r.sink texts).1) ∧
            ∀ {ρ : Type} (seen : σ → List ρ), Sink.Grows seen → seen r.sink <+: seen r'.sink) ∧
      ∀ fuel, limit < fuel →
        OnStack t.name limit r (runStacked w { o with maxDepth := limit } fuel t c sink) := by
  intro r r'
  have hstack (fuel : Nat) (hfuel : limit < fuel) :
      OnStack t.name limit r (runStacked w { o with maxDepth := limit } fuel t c sink) :=
    run_onStack w { o with maxDepth := limit } hfuel t c sink
  have hcut : r' = r ∨ (∃ chain, r.result = .error (.recursionLimit limit chain)) ∧
      ∃ texts, r'.sink = (Sink.offer r.sink texts).1 :=
    run_outlasts w { o with maxDepth := limit } { o with maxDepth := higher } rfl hlimit t c sink
  refine ⟨fun hr => ?_, fun n chain hr => ?_, hstack⟩
  · obtain heq | ⟨⟨chain, hchain⟩, -⟩ := hcut
    · exact heq
    · exact absurd hchain (hr _ _)
  · have hon := hstack (limit + 1) (Nat.lt_succ_self limit)
    obtain ⟨stack, call, hmem, rfl, rfl⟩ := (hon.explained n chain).mp hr
    have hmore : ∃ texts, r'.sink = (Sink.offer r.sink texts).1 := by
      obtain heq | ⟨-, hmore⟩ := hcut
      · exact ⟨[], by rw [heq, Sink.offer]⟩
      · exact hmore
    cases hon.balanced _ hmem with
    | @refused calls _ hlength =>
      refine ⟨rfl, ?_, rfl, hmore, fun seen hgrows => ?_⟩
      · simp [CallStack.chain, hlength]
      · obtain ⟨texts, hsink⟩ := hmore
        rw [hsink]
        exact hgrows.offer r.sink texts

end

/-- A template that calls itself if it was given a value, run without and with one. -/
theorem run_maxDepth_once :
    let source := "x<:if:n><:call:t><.if>".toList
    let o : CompileOptions := { params := ["n"], registry := some 0, forward := ["t"] }
    ∃ p, compile "t" source o = .ok p ∧
      let t : Template := ⟨p, 0⟩
      let w : World := { catalog := ((Catalog.reserve {}).1.publish p).1.keep 0 ⟨[("t", t)]⟩ }
      let given : Context := (Context.fresh t).store 0 (.bool true)
      let r (limit : Nat) (c : Context) := run w { maxDepth := limit } t c ({} : TextSink)
      r 1 (.fresh t) = r 0 (.fresh t) ∧
        (r 0 given).result = .error (.recursionLimit 0 ["t", "t"]) ∧
        (r 0 given).sink.text.toList <+: (r 1 given).sink.text.toList ∧
        OnStack "t" 0 (r 0 given) (runStacked w { maxDepth := 0 } 1 t given {}) := by
  intro source o
  obtain ⟨p, hp⟩ : ∃ p, compile "t" source o = .ok p := exists_of_isOk (by decide +kernel)
  refine ⟨p, hp, ?_⟩
  intro t w given r
  have hends : (compile "t" source o).toOption.all (fun p =>
      let t : Template := ⟨p, 0⟩
      let w : World := { catalog := ((Catalog.reserve {}).1.publish p).1.keep 0 ⟨[("t", t)]⟩ }
      let given : Context := (Context.fresh t).store 0 (.bool true)
      let r (c : Context) := run w { maxDepth := 0 } t c ({} : TextSink)
      (r (.fresh t)).result.isOk &&
        decide ((r given).result = .error (.recursionLimit 0 ["t", "t"]))) = true := by
    decide +kernel
  rw [hp] at hends
  obtain ⟨hfresh, hgiven⟩ := Bool.and_eq_true_iff.mp hends
  have hrefused : (r 0 given).result = .error (.recursionLimit 0 ["t", "t"]) :=
    of_decide_eq_true hgiven
  have hname : t.name = "t" := name_of_compile hp
  have hdepths := run_maxDepth w {} t (.fresh t) ({} : TextSink) (Nat.zero_le 1)
  have hsame := hdepths.1 fun n chain h => by
    change (r 0 (.fresh t)).result.isOk = true at hfresh
    rw [show (r 0 (.fresh t)).result = _ from h] at hfresh
    cases hfresh
  obtain ⟨-, hcut, hstack⟩ := run_maxDepth w {} t given ({} : TextSink) (Nat.zero_le 1)
  obtain ⟨-, -, -, -, hprefix⟩ := hcut _ _ hrefused
  exact ⟨hsame, hrefused, hprefix _ TextSink.grows, hname ▸ hstack 1 Nat.zero_lt_one⟩

end TemplateEngine

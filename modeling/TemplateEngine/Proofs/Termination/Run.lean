import TemplateEngine.Proofs.Termination.Errors
import TemplateEngine.Proofs.Termination.Machine
import TemplateEngine.Proofs.Termination.Produced

/-! Every run of a compiled template ends. By its jumps a program only moves forward, loop bodies
are smaller than what they stand in, and a call takes one from the depth; so the fuel that a run
needs is found by induction on the depth and, for one depth, on the blocks of the template. -/
namespace TemplateEngine

section Blocks

variable {σ : Type} [Sink σ] {w : World} {o : RunOptions} {depth : Nat} {chain : List String}
  {t : Template}

/-- Carrying out the instructions from `place` up to `stop` settles. -/
abbrev RangeSettles (w : World) (o : RunOptions) (depth : Nat) (chain : List String) (t : Template)
    (place stop : Nat) (r : Run σ Unit) : Prop :=
  Settles (fun fuel => execRange w o fuel depth chain t place stop) r

theorem settles_stop (stop : Nat) :
    RangeSettles w o depth chain t stop stop (pure () : Run σ Unit) := by
  apply Settles.step (.pure ())
  intro fuel
  rw [execRange, if_neg (Nat.lt_irrefl stop)]

/-! Whatever the rest does from where a part of the program ends, the part and the rest do together
from where the part begins. -/

theorem settles_plain {place stop : Nat} {i : Instr} {r : Run σ Unit}
    (h : t.instrs[place]? = some i) (hplain : i = .otherwise ∨ i = .endLoop) (hlt : place < stop)
    (hrest : RangeSettles w o depth chain t (place + 1) stop r) :
    RangeSettles w o depth chain t place stop r := by
  apply Settles.step hrest
  intro fuel
  rw [execRange, if_pos hlt, h]
  obtain rfl | rfl := hplain <;> rfl

def CallsSettle (w : World) (o : RunOptions) (depth : Nat) (chain : List String)
    (enter : Enter σ) : Prop :=
  ∀ u, w.Knows u → ∀ site bind,
    Settles (fun fuel => .enter o (execRange w o fuel) depth chain u site bind) (enter u site bind)

variable {enter : Enter σ}

theorem settles_action (henter : CallsSettle w o depth chain enter)
    {place stop : Nat} {a : Action} {r : Run σ Unit}
    (h : t.instrs[place]? = some (.action a)) (hlt : place < stop)
    (hrest : RangeSettles w o depth chain t (place + 1) stop r) :
    RangeSettles w o depth chain t place stop (do Frame.act ⟨w, o, t⟩ enter place a; r) := by
  cases a with
  | call c =>
    have hcall := (Settles.call (f := ⟨w, o, t⟩) henter c).bind fun _ => hrest
    apply Settles.step hcall
    intro fuel
    rw [execRange, if_pos hlt, h]
  | _ =>
    refine Settles.step ((Settles.lift _).bind fun _ => hrest) fun fuel => ?_
    rw [execRange, if_pos hlt, h]
    rfl

theorem settles_notes (henter : CallsSettle w o depth chain enter)
    {place stop : Nat} {r : Run σ Unit} (unknown : List String)
    (h : CodeAt t.instrs place (noteInstrs unknown)) (hle : place + unknown.length ≤ stop)
    (hrest : RangeSettles w o depth chain t (place + unknown.length) stop r) :
    RangeSettles w o depth chain t place stop (do Frame.writeNotes unknown; r) := by
  induction unknown generalizing place with
  | nil => exact hrest
  | cons name unknown ih =>
    rw [List.length_cons] at hle hrest
    have hafter := ih h.tail (by omega) (by rwa [Nat.add_assoc, Nat.add_comm 1])
    have hnote := settles_action henter h.head (by omega) hafter
    simpa only [Frame.writeNotes, Frame.act, List.forM_eq_forM, List.forM_cons, bind_assoc]
      using hnote

mutual

theorem settles_item (henter : CallsSettle w o depth chain enter)
    {start middle stop : Nat} {r : Run σ Unit} (i : Item)
    (h : i.LaidOut t.instrs start middle) (hle : middle ≤ stop)
    (hrest : RangeSettles w o depth chain t middle stop r) :
    RangeSettles w o depth chain t start stop (do Frame.runItem ⟨w, o, t⟩ enter start i; r) := by
  match i, h with
  | .action a, ⟨hinstr, hmiddle⟩ =>
    subst hmiddle
    exact settles_action henter hinstr hle hrest
  | .choice c, h => exact settles_chain henter c h hle hrest
  | .loop header body, ⟨n, close, hloop, hn, hbody, hclose, hmiddle⟩ =>
    have hbodyLe := hbody.balanced.1
    obtain rfl : start + n - 1 = close := by omega
    have hpass := settles_block henter body hbody (Nat.le_refl _) (settles_stop _)
    rw [bind_pure_unit] at hpass
    have hloop' : Frame.runItem ⟨w, o, t⟩ enter start (.loop header body) = (do
        Frame.passes header (Frame.runBlock ⟨w, o, t⟩ enter (start + 1) body)
          (← Frame.elements ⟨w, o, t⟩ header.container)) := by
      simp only [Frame.runItem, Frame.passes_eq]
    rw [hloop', bind_assoc]
    subst hn
    refine Settles.step ((Settles.lift _).bind fun items =>
      (Settles.passes hpass header items).bind fun _ => hrest) fun fuel => ?_
    rw [execRange, if_pos (by omega), hloop]

theorem settles_block (henter : CallsSettle w o depth chain enter)
    {start middle stop : Nat} {r : Run σ Unit} (b : Block)
    (h : b.LaidOut t.instrs start middle) (hle : middle ≤ stop)
    (hrest : RangeSettles w o depth chain t middle stop r) :
    RangeSettles w o depth chain t start stop (do Frame.runBlock ⟨w, o, t⟩ enter start b; r) := by
  match b, h with
  | .nil, hmiddle =>
    subst hmiddle
    exact hrest
  | .cons first rest, ⟨between, hfirst, hrest'⟩ =>
    have hbetween := hrest'.balanced.1
    have hafter := settles_block henter rest hrest' hle hrest
    have hitem := settles_item henter first hfirst (Nat.le_trans hbetween hle) hafter
    rw [Frame.runBlock, bind_assoc, hfirst.length_eq]
    exact hitem

theorem settles_chain (henter : CallsSettle w o depth chain enter)
    {start middle stop : Nat} {r : Run σ Unit} {first : Bool} (c : Chain)
    (h : c.LaidOut t.instrs first start middle) (hle : middle ≤ stop)
    (hrest : RangeSettles w o depth chain t middle stop r) :
    RangeSettles w o depth chain t start stop (do Frame.runChain ⟨w, o, t⟩ enter start c; r) := by
  match c, h with
  | .done, hmiddle =>
    subst hmiddle
    exact hrest
  | .otherwise body, ⟨hinstr, hbody⟩ =>
    have hbodyLe := hbody.balanced.1
    exact settles_plain hinstr (.inl rfl) (by omega) (settles_block henter body hbody hle hrest)
  | .branch unknown cond body more, ⟨place, next, n, hnotes, hplace, hbranch, hn, hbody, hmore⟩ =>
    have hbodyLe := hbody.balanced.1
    have hmoreLe := hmore.balanced.1
    subst hplace
    rw [Frame.runChain, bind_assoc, hbody.length_eq]
    refine settles_notes henter unknown hnotes (by omega) ?_
    have htaken := settles_block henter body hbody (Nat.le_refl _) (settles_stop _)
    have hother := settles_chain henter more hmore hle hrest
    rw [bind_pure_unit] at htaken
    refine Settles.step (F := fun fuel => do
      if ← Fueled.lift (Frame.condition ⟨w, o, t⟩ cond) then
        execRange w o fuel depth chain t (start + unknown.length + 1)
          (start + unknown.length + next)
        execRange w o fuel depth chain t (start + unknown.length + n) stop
      else
        execRange w o fuel depth chain t (start + unknown.length + next) stop) ?_ fun fuel => ?_
    · rw [bind_assoc]
      apply Settles.bind (.lift _)
      intro holds
      cases holds with
      | true => exact htaken.bind fun _ => hn ▸ hrest
      | false => exact hother
    · rw [execRange, if_pos (by omega), hbranch]

end

theorem settles_walk (henter : CallsSettle w o depth chain enter) (ht : t.IsCompiled) :
    RangeSettles w o depth chain t 0 t.instrs.length (Frame.walk ⟨w, o, t⟩ enter 0 t.instrs) := by
  obtain ⟨b, hb⟩ := ht.exists_isNested
  have hlaid : b.LaidOut t.instrs 0 t.instrs.length := by
    rw [hb.instrs_eq]
    exact b.laidOut_of_codeAt (.self _) (Nat.zero_add _)
  have hwalk : Frame.walk ⟨w, o, t⟩ enter 0 t.instrs = Frame.runBlock ⟨w, o, t⟩ enter 0 b := by
    rw [hb.instrs_eq]
    exact Frame.walk_flatten (fun _ _ => rfl) b
  have hblock := settles_block henter b hlaid (Nat.le_refl _) (settles_stop _)
  rw [bind_pure_unit] at hblock
  rw [hwalk]
  exact hblock

end Blocks

/-- Carrying out a compiled template by its jumps settles, whatever its calls end up in: at depth
zero none is made, and else the callee has one less to go. -/
theorem settles_runTemplate {σ : Type} [Sink σ] {w : World} (hw : w.catalog.Produced)
    (o : RunOptions) (depth : Nat) (chain : List String) {t : Template} (ht : t.IsCompiled) :
    RangeSettles w o depth chain t 0 t.instrs.length
      (runTemplate w o depth chain t : Run σ Unit) := by
  induction depth generalizing chain t with
  | zero =>
    rw [runTemplate_zero]
    exact settles_walk (fun _ _ _ _ _ => ⟨0, fun _ _ => rfl⟩) ht
  | succ depth ih =>
    rw [runTemplate_succ]
    refine settles_walk ?_ ht
    intro u hu site bind
    apply Settles.within
    apply Settles.bind (.lift bind)
    intro _
    exact ih _ (hu.isCompiled hw)

/-- Every run of a compiled template ends: some fuel is enough, and more changes nothing. If the
sink takes all writes, a run in a context of the template succeeds or exceeds the call depth; one in
a context of another template is refused. -/
theorem run_terminates {σ : Type} [Sink σ] {w : World} (hw : w.catalog.Produced) (o : RunOptions)
    {t : Template} (ht : t.IsCompiled) (c : Context) (sink : σ) :
    (∃ fuel, ∀ more, fuel ≤ more → runFueled w o more t c sink = some (run w o t c sink)) ∧
      (c.isFor t = true → Sink.AcceptsAll sink →
        (run w o t c sink).result = .ok () ∨
          ∃ chain, (run w o t c sink).result = .error (.recursionLimit o.maxDepth chain)) ∧
      (c.isFor t = false →
        (run w o t c sink).result = .error (.contextMismatch t.name t.id c.template)) := by
  refine ⟨?_, ?_, ?_⟩
  · obtain ⟨fuel, hfuel⟩ := settles_runTemplate hw o o.maxDepth [t.name] ht { context := c, sink }
    refine ⟨fuel, ?_⟩
    intro more hmore
    unfold runFueled run Outcome.inContext
    split
    · rw [hfuel more hmore, Option.map_some]
    · rw [Option.map_some]
  · intro hfor hsink
    have hlimited := (limited_runTemplate w o o.maxDepth [t.name] t { context := c, sink } hsink).2
    have hresult : (run w o t c sink).result =
        ((runTemplate w o o.maxDepth [t.name] t).run.run { context := c, sink }).1 := by
      rw [run, Outcome.inContext, if_pos hfor, Outcome.ofRun]
    rw [hresult]
    cases hr : ((runTemplate w o o.maxDepth [t.name] t).run.run { context := c, sink }).1 with
    | ok u => exact .inl rfl
    | error e =>
      obtain ⟨chain, rfl⟩ := hlimited e hr
      exact .inr ⟨chain, rfl⟩
  · intro hfor
    rw [run, Outcome.inContext, hfor, if_neg (by decide), Outcome.ofRun]

/-- A template that calls itself without end. -/
theorem run_terminates_recursive :
    let o : CompileOptions := { registry := some 0, forward := ["t"] }
    ∃ p, compile "t" "<:call:t>".toList o = .ok p ∧
      let t : Template := ⟨p, 0⟩
      let w : World := { catalog := ((Catalog.publish {} p).1).keep 0 { entries := [("t", t)] } }
      let sink : TextSink := {}
      (∃ fuel, ∀ more, fuel ≤ more →
        runFueled w {} more t (.fresh t) sink = some (run w {} t (.fresh t) sink)) ∧
      ((run w {} t (.fresh t) sink).result = .ok () ∨
        ∃ chain, (run w {} t (.fresh t) sink).result = .error (.recursionLimit 100 chain)) := by
  intro o
  obtain ⟨p, hp⟩ : ∃ p, compile "t" "<:call:t>".toList o = .ok p :=
    exists_of_isOk (by decide +kernel)
  refine ⟨p, hp, ?_⟩
  intro t w sink
  have hw : w.catalog.Produced := by
    refine (Catalog.Produced.empty.publish hp).keep 0 fun e he => ⟨0, ?_⟩
    obtain rfl := List.mem_singleton.mp he
    rfl
  have ht : t.IsCompiled := ⟨_, o, (name_of_compile hp).symm ▸ hp⟩
  have hfor : (Context.fresh t).isFor t = true := by simp [Context.isFor, Context.fresh]
  obtain ⟨hfuel, hresult, -⟩ := run_terminates hw {} ht (.fresh t) sink
  exact ⟨hfuel, hresult hfor (TextSink.acceptsAll rfl)⟩

/-- With the context of another template a run neither succeeds nor exceeds the call depth. -/
theorem run_foreign_context :
    ∃ p q, compile "a" "x".toList {} = .ok p ∧ compile "b" "y".toList {} = .ok q ∧
      let a : Template := ⟨p, 0⟩
      let b : Template := ⟨q, 1⟩
      let w : World := { catalog := ((Catalog.publish {} p).1.publish q).1 }
      let sink : TextSink := {}
      w.catalog.Produced ∧ w.catalog.template? 0 = some a ∧ w.catalog.template? 1 = some b ∧
        Sink.AcceptsAll sink ∧
        ¬((run w {} b (.fresh a) sink).result = .ok () ∨
          ∃ chain, (run w {} b (.fresh a) sink).result = .error (.recursionLimit 100 chain)) := by
  obtain ⟨p, hp⟩ : ∃ p, compile "a" "x".toList {} = .ok p := exists_of_isOk (by decide +kernel)
  obtain ⟨q, hq⟩ : ∃ q, compile "b" "y".toList {} = .ok q := exists_of_isOk (by decide +kernel)
  refine ⟨p, q, hp, hq, (Catalog.Produced.empty.publish hp).publish hq, rfl, rfl,
    TextSink.acceptsAll rfl, ?_⟩
  rintro (h | ⟨chain, h⟩) <;> cases h

end TemplateEngine

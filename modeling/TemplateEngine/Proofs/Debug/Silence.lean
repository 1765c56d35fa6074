import TemplateEngine.Proofs.Debug.Exchange
import TemplateEngine.Proofs.Writing.Prefix

/-! Debug markers make no difference to a run, neither whether they report nor whether they are
there. -/
namespace TemplateEngine

/-- Two runs end in the same way, with the same written, and leave the same in their slots. -/
structure Outcome.WritesSame {σ : Type} (r r' : Outcome σ) : Prop where
  result : r.result = r'.result
  sink : r.sink = r'.sink
  values : r.context.values = r'.context.values

/-- Two runs offer their sink the same text, maybe in other parts. Where it takes all of them, they
end in the same way and leave the same in their slots. -/
def Outcome.OffersSame {σ : Type} [Sink σ] (sink : σ) (r r' : Outcome σ) : Prop :=
  ∃ texts texts', String.join texts = String.join texts' ∧
    r.sink = (Sink.offer sink texts).1 ∧ r'.sink = (Sink.offer sink texts').1 ∧
    ((Sink.offer sink texts).2 = true → (Sink.offer sink texts').2 = true →
      r.result = r'.result ∧ r.context.values = r'.context.values)

theorem Context.Used.fits {w : World} (hw : w.catalog.Produced) {t : Template} (ht : w.Knows t)
    {c : Context} (hc : c.Used w.Knows t) : c.Fits t :=
  (hc.sound (World.distinctIds hw) ht).fits ht (beq_iff_eq.mpr hc.template_eq)

theorem TextSink.seamless : Sink.Seamless TextSink := by
  rintro ⟨written, room⟩ text more
  change TextSink.write ⟨written, room⟩ (text ++ more) =
    if (TextSink.write ⟨written, room⟩ text).2 then
      (TextSink.write ⟨written, room⟩ text).1.write more
    else TextSink.write ⟨written, room⟩ text
  cases room with
  | none => simp [write, String.append_assoc]
  | some room =>
    have htake : (text.toList ++ more.toList).take room =
        text.toList.take room ++ more.toList.take (room - text.length) := by
      rw [List.take_append, String.length_toList]
    by_cases htext : text.length ≤ room
    · have hwhole : text.toList.take room = text.toList :=
        List.take_of_length_le (by rwa [String.length_toList])
      by_cases hmore : more.length ≤ room - text.length
      · have hall : text.length + more.length ≤ room := by omega
        simp [write, htext, hmore, hall, String.append_assoc, Nat.sub_sub]
      · have hall : ¬text.length + more.length ≤ room := by omega
        simp [write, htext, hmore, hall, htake, hwhole, String.append_assoc]
    · have hall : ¬text.length + more.length ≤ room := by omega
      have hnothing : room - text.length = 0 := by omega
      simp [write, htext, hall, htake, hnothing]

theorem context_run_unbounded (w : World) (o : RunOptions) (t : Template) (c : Context) :
    (run w o t c ({} : TextSink)).context = (run w o t c ({} : Transcript)).context := by
  obtain ⟨-, htaken, -⟩ := run_offer w o t c ({} : TextSink)
  rw [TextSink.offer_unbounded] at htaken
  exact (htaken rfl).2.1

section Runs

variable {w w' : World} {t t' : Template} {T : TwinTables} {c c' : Context}
  (hw : w.Exchanged t t' w') (ht : Template.Twins T t t') (hproduced : w.catalog.Produced)
  (hproduced' : w'.catalog.Produced) (hknown : w.Knows t) (hknown' : w'.Knows t')
  (hc : c.Used w.Knows t) (hc' : c'.Used w'.Knows t') (hvalues : c.values = c'.values)
  (htarget : c.target = c'.target) (o : RunOptions)
include hw ht hproduced hproduced' hknown hknown' hc hc' hvalues htarget

theorem run_writesSame {σ : Type} [Sink σ] (hseamless : Sink.Seamless σ) (sink : σ) :
    (run w o t c sink).WritesSame (run w' o t' c' sink) := by
  have hfor : c.isFor t = true := beq_iff_eq.mpr hc.template_eq
  have hfor' : c'.isFor t' = true := beq_iff_eq.mpr hc'.template_eq
  have htwins : Context.Twins (fun _ _ => True) t t' c c' :=
    ⟨hc.fits hproduced hknown, hc'.fits hproduced' hknown', hvalues, htarget, trivial⟩
  have hafresh : (runAfresh w o t c sink).WritesSame (runAfresh w' o t' c' sink) := by
    have hruns := (hw.pairing ht hseamless o).runTemplateWith rfl o.maxDepth [t.name] .other
    obtain ⟨hagree, hafter⟩ := hruns ⟨c, sink, []⟩ ⟨c', sink, []⟩ ⟨htwins, rfl, trivial⟩
    simp only [runAfresh, Outcome.inContext, hfor, hfor', if_true, ← ht.name]
    exact ⟨hagree.eq, hafter.sink, hafter.context.values⟩
  have hids := World.distinctIds hproduced
  have hids' := World.distinctIds hproduced'
  have hsound := hc.sound hids hknown
  have hsound' := hc'.sound hids' hknown'
  have hleft := (run_same_runAfresh hids (fun _ h => h) o hknown ⟨rfl, hsound, hsound⟩ sink).1
  have hright := (run_same_runAfresh hids' (fun _ h => h) o hknown' ⟨rfl, hsound', hsound'⟩ sink).1
  exact {
    result := hleft.result.trans (hafresh.result.trans hright.result.symm)
    sink := hleft.sink.trans (hafresh.sink.trans hright.sink.symm)
    values := (congrArg Context.values hleft.context).trans
      (hafresh.values.trans (congrArg Context.values hright.context).symm) }

theorem run_offersSame {σ : Type} [Sink σ] (sink : σ) :
    (run w o t c sink).OffersSame sink (run w' o t' c' sink) := by
  have hsame := run_writesSame hw ht hproduced hproduced' hknown hknown' hc hc' hvalues htarget o
    TextSink.seamless {}
  obtain ⟨hresult, htext⟩ := run_unbounded w o t c
  obtain ⟨hresult', htext'⟩ := run_unbounded w' o t' c'
  obtain ⟨hsink, htaken, -⟩ := run_offer w o t c sink
  obtain ⟨hsink', htaken', -⟩ := run_offer w' o t' c' sink
  refine ⟨_, _, ?_, hsink, hsink', fun hall hall' => ⟨?_, ?_⟩⟩
  · rw [← htext, ← htext', hsame.sink]
  · rw [(htaken hall).1, (htaken' hall').1, ← hresult, ← hresult', hsame.result]
  · rw [(htaken hall).2.1, (htaken' hall').2.1, ← context_run_unbounded, ← context_run_unbounded,
      hsame.values]

end Runs

/-- Debug markers make no difference, but to what is reported. A run of a compiled template does the
same whatever the triggers in its context are, and leaves the same in the slots of all contexts. A
debug marker that names nothing unknown can be replaced by an empty comment, and this template does
the same as the other one, also where it is called. -/
theorem run_without_debug {name : String} {source : List Char} {o : CompileOptions} {p : Program}
    (h : compile name source o = .ok p) :
    (∀ {σ : Type} [Sink σ] (w : World) (ro : RunOptions) (id : TemplateId) (c c' : Context),
        SameButTraced c c' → ∀ sink : σ,
          let r := run w ro ⟨p, id⟩ c sink
          let r' := run w ro ⟨p, id⟩ c' sink
          r.result = r'.result ∧ r.sink = r'.sink ∧ SameButTraced r.context r'.context) ∧
      ∀ pieces value compare span rest,
        Piece.ofSource source = pieces ++ .directive (.debug value compare) span :: rest →
        KnownAfter o pieces value →
        ∃ before marker after p', source = before ++ (marker ++ after) ∧
          span = ⟨Text.byteLength before, Text.byteLength before + Text.byteLength marker⟩ ∧
          compile name (before ++ (Piece.emptyComment ++ after)) o = .ok p' ∧
          ∀ {σ : Type} [Sink σ] (ro : RunOptions) {w w' : World} {id id' : TemplateId}
            {c c' : Context}, w.Exchanged ⟨p, id⟩ ⟨p', id'⟩ w' →
            w.catalog.Produced → w'.catalog.Produced → w.Knows ⟨p, id⟩ → w'.Knows ⟨p', id'⟩ →
            c.Used w.Knows ⟨p, id⟩ → c'.Used w'.Knows ⟨p', id'⟩ →
            c.values = c'.values → c.target = c'.target → ∀ sink : σ,
              let r := run w ro ⟨p, id⟩ c sink
              let r' := run w' ro ⟨p', id'⟩ c' sink
              (Sink.Seamless σ → r.WritesSame r') ∧ r.OffersSame sink r' := by
  refine ⟨fun w ro id c c' hc sink => run_anyTrigger w ro _ hc sink, ?_⟩
  intro pieces value compare span rest hpieces hknown
  have hmem : .directive (.debug value compare) span ∈ Piece.ofSource source := by simp [hpieces]
  obtain ⟨before, marker, after, rfl, hspan⟩ := Piece.exists_split_of_scan hmem
  rw [Nat.zero_add] at hspan
  subst hspan
  obtain ⟨d, hd, rfl⟩ := compile_eq_ok_iff.mp h
  obtain ⟨d', hd', htwins⟩ := draft_emptyComment hpieces hknown hd
  refine ⟨before, marker, after, d'.program name o, rfl, rfl,
    compile_eq_ok_iff.mpr ⟨d', hd', rfl⟩, ?_⟩
  intro σ _ ro w w' id id' c c' hw hproduced hproduced' hknown hknown' hc hc' hvalues htarget sink
  obtain ⟨T, ht⟩ := htwins.program name o id id'
  constructor
  · intro hseamless
    exact run_writesSame hw ht hproduced hproduced' hknown hknown' hc hc' hvalues htarget ro
      hseamless sink
  · exact run_offersSame hw ht hproduced hproduced' hknown hknown' hc hc' hvalues htarget ro sink

/-- A template that calls itself, and so calls the other one where that is in its place. -/
theorem run_without_debug_recursive :
    let before := "a".toList
    let after := "<&x><:if:x>(<:call:t>)<.if>".toList
    let o : CompileOptions := { params := ["x"], registry := some 0, forward := ["t"] }
    ∃ p p' k k', compile "t" (before ++ ("<:debug:x>".toList ++ after)) o = .ok p ∧
      compile "t" (before ++ (Piece.emptyComment ++ after)) o = .ok p' ∧
      (Context.fresh ⟨p, 0⟩).set "x" (.int 1) = .ok k ∧
      (Context.fresh ⟨p', 0⟩).set "x" (.int 1) = .ok k' ∧
      let r := run (World.ofProgram p) {} ⟨p, 0⟩ k ({} : TextSink)
      let traced := run (World.ofProgram p) {} ⟨p, 0⟩ { k with trigger := some 0 } ({} : TextSink)
      let r' := run (World.ofProgram p') {} ⟨p', 0⟩ k' ({} : TextSink)
      SameButTraced r.context traced.context ∧ r.WritesSame r' := by
  intro before after o
  let source := before ++ ("<:debug:x>".toList ++ after)
  let source' := before ++ (Piece.emptyComment ++ after)
  have hslots : ((compile "t" source o).toOption.bind fun p =>
      (compile "t" source' o).toOption.map fun p' => (p.slots.names, p'.slots.names)) =
        some (["x"], ["x"]) := by
    decide +kernel
  have hnext : Piece.nextMarker [] source =
      (before, some (.directive, "debug:x".toList ++ '>' :: after)) := by
    decide +kernel
  have htext : Piece.markerText ("debug:x".toList ++ '>' :: after) =
      some ("debug:x".toList, after) := by
    decide +kernel
  have hscan : Piece.ofSource source =
      .text before :: .directive (.debug (some ['x']) none) ⟨1, 11⟩ :: Piece.scan 11 false after :=
    Piece.scan_directive hnext htext rfl
  have hunknown : ((Tables.declareParams {} o.params).toOption.bind fun t =>
      (t.operand o ['x']).toOption.map (·.2.1)) = some [] := by
    decide +kernel
  have hvalue : (some ['x']).filter (!Text.isAllBlank ·) = some ['x'] := by decide +kernel
  have hset (q : Program) (hq : q.slots.names = ["x"]) :
      ∃ k, (Context.fresh ⟨q, 0⟩).set "x" (.int 1) = .ok k ∧ k.values = [.int 1] ∧
        k.target = .null := by
    simp [Context.set, Context.setSlot, Context.fresh, SlotMap.lookup?, SlotMap.size, hq,
      Context.store]
  obtain ⟨p, hp, hslots⟩ := Option.bind_eq_some_iff.mp hslots
  obtain ⟨p', hp', hslots⟩ := Option.map_eq_some_iff.mp hslots
  obtain ⟨hslots, hslots'⟩ := Prod.mk.inj hslots
  replace hp := eq_ok_of_toOption hp
  replace hp' := eq_ok_of_toOption hp'
  have hknown (q : Program) : (World.ofProgram q).Knows ⟨q, 0⟩ := .inl ⟨0, rfl⟩
  have hknownAfter (cs : List Char) : KnownAfter o [.text cs] (some ['x']) := by
    intro tables e htables he text htext x unknown t' hoperand
    obtain rfl := Except.ok.inj he
    obtain rfl := Option.some.inj (hvalue.symm.trans htext)
    change tables.operand o ['x'] = _ at hoperand
    rw [htables] at hunknown
    simpa [Except.toOption, hoperand] using hunknown
  obtain ⟨htrigger, hdebug⟩ := run_without_debug hp
  obtain ⟨before', marker, after', q, hsource, hspan, hq, hruns⟩ :=
    hdebug [.text before] _ _ _ _ hscan (hknownAfter before)
  obtain ⟨hstart, hstop⟩ := Text.Span.mk.inj hspan
  obtain ⟨rfl, hrest⟩ := Text.eq_of_byteLength_eq hsource hstart
  obtain ⟨rfl, rfl⟩ := Text.eq_of_byteLength_eq hrest (Nat.add_left_cancel hstop)
  obtain rfl : p' = q := Except.ok.inj (hp'.symm.trans hq)
  obtain ⟨k, hk, hvalues, htarget⟩ := hset p hslots
  obtain ⟨k', hk', hvalues', htarget'⟩ := hset p' hslots'
  have hexchanged :=
    World.Exchanged.ofProgram ((name_of_compile hp).trans (name_of_compile hp').symm)
  have hboth := hruns (σ := TextSink) {} hexchanged (World.ofProgram_produced hp)
    (World.ofProgram_produced hp') (hknown p) (hknown p') (.set .fresh hk) (.set .fresh hk')
    (hvalues.trans hvalues'.symm) (htarget.trans htarget'.symm) {}
  have htwice := htrigger (World.ofProgram p) {} 0 k { k with trigger := some 0 }
    (sameButTraced_trigger k (some 0)) ({} : TextSink)
  exact ⟨p, p', k, k', hp, hp', hk, hk', htwice.2.2, hboth.1 TextSink.seamless⟩

end TemplateEngine

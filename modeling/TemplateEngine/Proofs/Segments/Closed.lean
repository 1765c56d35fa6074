import TemplateEngine.Proofs.Calls.Noted
import TemplateEngine.Proofs.References.Emitted
import TemplateEngine.Proofs.Segments.Wired
import TemplateEngine.Proofs.Segments.Written

/-! The registry of a file is closed: all that its templates call is in it, unless a run is given it
as a value. So no call of theirs fails for want of a template as long as the registry lives. -/
namespace TemplateEngine

/-- What a file has under the name of a segment, with the names that can be called and the segments
before it. -/
structure Segment.ClosedIn (o : ReadOptions) (id : RegistryId) (r : Registry)
    (before : List Segment) (s : Segment) (t : Template) : Prop where
  resolved : r.resolve? s.name = some t
  compiled : compile s.name s.body (o.forSegment r.names id ⟨r.entries.take before.length⟩ s) =
    .ok t.toProgram
  params : t.params = s.params
  bound {c : Call} {ref : TemplateRef} : .action (.call c) ∈ t.instrs → c.callee = .known ref →
    ∃ s' ∈ before, s'.name = ref.name ∧ ∃ u, r.resolve? ref.name = some u ∧ u.ref = ref
  named {c : Call} {name : String} : .action (.call c) ∈ t.instrs → c.callee = .named name →
    name ∈ r.names

/-- A registry has the names of the segments in their order, and under each of them a template that
was compiled from its segment and calls nothing that the registry does not have. -/
structure Registry.Closed (o : ReadOptions) (id : RegistryId) (segments : List Segment)
    (r : Registry) : Prop where
  names : r.names = segments.map Segment.name
  segment {before after : List Segment} {s : Segment} : segments = before ++ s :: after →
    ∃ t, s.ClosedIn o id r before t

/-- The call finds nothing, because no template has the name or the registry is gone. -/
def CallNote.Lost (n : CallNote) : Prop :=
  ∃ e, n.found = .error e ∧ (e.failure = .unknownTemplate ∨ e.failure = .registryDropped)

section Files

variable {o : ReadOptions} {c c' : Catalog} {sourceName : String} {source : List Char}
  {segments : List Segment} {id : RegistryId} {r : Registry}
  (hsplit : splitSegments sourceName source = .ok segments)
  (h : readTemplates c sourceName source o = .ok (c', id, r))
include hsplit h

theorem exists_closedIn {before after : List Segment} {s : Segment}
    (hsegments : segments = before ++ s :: after) : ∃ t, s.ClosedIn o id r before t := by
  have hnames := names_readTemplates hsplit h
  obtain ⟨t, ht, hcompile⟩ := compile_of_readTemplates hsplit h hsegments
  rw [← hnames] at hcompile
  refine ⟨t, ht, hcompile, ?_, fun {c ref} hc href => ?_,
    fun hc hname => named_of_compile hcompile hc hname⟩
  · -- The parameters of a segment are names, so trimming leaves them as they are.
    have hs : s ∈ segments := hsegments ▸ List.mem_append_right _ List.mem_cons_self
    have hparams := ((splits_of_splitSegments hsplit).cutFrom.names s hs).2
    rw [params_of_compile hcompile]
    refine (List.map_congr_left fun p hp => ?_).trans (List.map_id _)
    rw [Text.trim_of_isName (hparams p hp), String.ofList_toList]
    rfl
  · have hbound := ((wellReferenced_of_compile hcompile).instrs _ hc).call c rfl
    rw [Call.Bound, href] at hbound
    obtain ⟨name, u, hu, rfl, -⟩ := hbound
    have hu' : r.resolve? name = some u := Registry.sub_of_prefix (List.take_prefix _ _) _ _ hu
    have hname : u.ref.name = name := name_of_readTemplates hsplit h hu'
    have hmem : name ∈ before.map Segment.name := by
      have hearlier : name ∈ (r.entries.take before.length).map (·.1) :=
        Registry.mem_names_of_resolve? hu
      have hall : r.entries.map (·.1) =
          before.map Segment.name ++ (s :: after).map Segment.name := by
        rw [← List.map_append, ← hsegments]
        exact hnames
      rwa [List.map_take, hall, ← List.length_map Segment.name, List.take_left] at hearlier
    obtain ⟨s', hs', heq⟩ := List.mem_map.mp hmem
    rw [hname]
    exact ⟨s', hs', heq, u, hu', rfl⟩

/-- A call of a template of the file, while its registry lives, is not lost. -/
theorem CallNote.Made.not_lost {w : World} (hw : w.catalog.Produced)
    (halive : w.catalog.registry? id = some r) {n : CallNote} (hn : n.Made w) {name : String}
    (hcaller : r.resolve? name = some n.caller) : ¬n.Lost := by
  have W := wired_of_readTemplates hsplit h hw halive
  obtain ⟨ro, k, hfound⟩ := hn.found
  rintro ⟨e, he, hlost⟩
  rw [hfound] at he
  have hresolved {target : String} (htarget : n.call.callee.byName = .named target) :
      r.resolve? target = none := by
    rw [W.callee_eq hcaller hn.instr htarget] at he
    cases hresolve : r.resolve? target with
    | none => rfl
    | some u =>
      rw [hresolve] at he
      cases he
  cases hcallee : n.call.callee with
  | held slot =>
    rw [hcallee, Frame.callee] at he
    split at he
    · next t _ =>
      cases ht : w.catalog.template? t.id with
      | none =>
        rw [ht] at he
        cases he
        simp at hlost
      | some u =>
        rw [ht] at he
        cases he
    · cases he
      simp at hlost
  | named target =>
    obtain ⟨s, -, -, known, -, hcompile⟩ := exists_segment hsplit h hcaller
    exact (resolve?_eq_none_iff hsplit h).mp (hresolved (by rw [hcallee, Callee.byName]))
      (named_of_compile hcompile hn.instr hcallee)
  | known ref =>
    obtain ⟨known, hsub, hbound⟩ := W.calls hcaller hn.instr
    rw [Call.Bound, hcallee] at hbound
    obtain ⟨target, u, hu, rfl, -⟩ := hbound
    have hname : u.ref.name = target := W.name (hsub target u hu)
    have hnone : r.resolve? u.ref.name = none := hresolved (by rw [hcallee, Callee.byName])
    rw [hname, hsub target u hu] at hnone
    cases hnone

end Files

/-- A file that is read gives a closed registry. In every run in which that registry is alive, no
call of one of its templates is lost, however deep it is made and whatever the run started with. -/
theorem readTemplates_closed {o : ReadOptions} {c c' : Catalog} {sourceName : String}
    {source : List Char} {id : RegistryId} {r : Registry}
    (h : readTemplates c sourceName source o = .ok (c', id, r)) :
    (∃ segments, splitSegments sourceName source = .ok segments ∧ r.Closed o id segments) ∧
      ∀ w : World, w.catalog.Produced → w.catalog.registry? id = some r →
        ∀ {σ : Type} [Sink σ] (ro : RunOptions) (t : Template) (k : Context) (sink : σ),
          (run w ro t k sink).NotedAs w (runNoted w ro t k sink) ∧
            ∀ n ∈ (runNoted w ro t k sink).sink.notes, ∀ name,
              r.resolve? name = some n.caller → ¬n.Lost := by
  obtain ⟨segments, hsplit, -⟩ := bind_eq_ok h
  refine ⟨⟨segments, hsplit, names_readTemplates hsplit h, exists_closedIn hsplit h⟩, ?_⟩
  intro w hw halive σ _ ro t k sink
  have hnoted := run_noted w ro t k sink
  exact ⟨hnoted, fun n hn name hcaller => (hnoted.made n hn).not_lost hsplit h hw halive hcaller⟩

/-- The page calls a segment before it, which it was bound to, and one after it by name. -/
theorem readTemplates_closed_page :
    let source := "<:otx:row:x><&x><.otx><:otx:page><:call:row:x=1><:call:end><.otx>" ++
      "<:otx:end>.<.otx>"
    ∃ catalog id r page, readTemplates {} "f" source.toList {} = .ok (catalog, id, r) ∧
      r.resolve? "page" = some page ∧ r.names = ["row", "page", "end"] ∧
      let notes := (runNoted { catalog } {} page (.fresh page) ({} : TextSink)).sink.notes
      notes.map (fun n => n.found.toOption.map (·.name)) = [some "row", some "end"] ∧
        ∀ n ∈ notes, ∀ name, r.resolve? name = some n.caller → ¬n.Lost := by
  intro source
  have hfound : ((readTemplates {} "f" source.toList {}).toOption.bind fun x =>
      (x.2.2.resolve? "page").map fun page =>
        let notes := (runNoted { catalog := x.1 } {} page (.fresh page) ({} : TextSink)).sink.notes
        (x.2.2.names, notes.map fun n => n.found.toOption.map (·.name))) =
      some (["row", "page", "end"], [some "row", some "end"]) := by
    decide +kernel
  obtain ⟨⟨catalog, id, r⟩, h, hfound⟩ := Option.bind_eq_some_iff.mp hfound
  obtain ⟨page, hpage, hfound⟩ := Option.map_eq_some_iff.mp hfound
  obtain ⟨hnames, hnotes⟩ := Prod.mk.inj hfound
  replace h := eq_ok_of_toOption h
  obtain ⟨-, hruns⟩ := (readTemplates_closed h).2 { catalog } (.read .empty h)
    (registry?_of_readTemplates h) {} page (.fresh page) ({} : TextSink)
  exact ⟨catalog, id, r, page, h, hpage, hnames, hnotes, hruns⟩

end TemplateEngine

import TemplateEngine.Proofs.Calls.Published
import TemplateEngine.Proofs.References.Program
import TemplateEngine.Proofs.Segments.ByName
import TemplateEngine.Proofs.Segments.Read

/-! Where the calls of the templates of a file lead. A call that was bound when its caller was
compiled ends up in the same template as one that looks the name up in the registry of the file. -/
namespace TemplateEngine

/-- The argument is bound to no slot when its call is compiled, or to the one that `u` has for its
name. -/
def Argument.Fits (u : Template) (a : Argument) : Prop :=
  a.slot = none ∨ ∃ slot, a.slot = some slot ∧ u.slots.lookup? a.name = some slot

/-- A registry that is alive, and holds templates that are in the catalog, know the registry as
theirs and were compiled against parts of it. -/
structure World.Wired (w : World) (id : RegistryId) (r : Registry) : Prop where
  alive : w.catalog.registry? id = some r
  found {name : String} {u : Template} : r.resolve? name = some u →
    w.catalog.template? u.id = some u
  name {name : String} {u : Template} : r.resolve? name = some u → u.name = name
  registry {name : String} {u : Template} : r.resolve? name = some u → u.registry = some id
  calls {name : String} {u : Template} {c : Call} : r.resolve? name = some u →
    .action (.call c) ∈ u.instrs → ∃ known : Registry, known.Sub r ∧ c.Bound known

namespace World.Wired

variable {w : World} {o : RunOptions} {id : RegistryId} {r : Registry} (W : w.Wired id r)
  {caller name : String} {t : Template} {c : Call}
include W

theorem knows (h : r.resolve? name = some t) : w.Knows t :=
  .inr ⟨id, r, name, W.alive, h⟩

/-- A call that goes by a name leads to what the registry has under that name. -/
theorem callee_eq (ht : r.resolve? caller = some t) (hc : .action (.call c) ∈ t.instrs)
    (hname : c.callee.byName = .named name) (k : Context) :
    Frame.callee ⟨w, o, t⟩ k c.callee =
      (r.resolve? name).elim (.error ⟨name, .unknownTemplate⟩) .ok := by
  obtain ⟨known, hsub, hbound⟩ := W.calls ht hc
  unfold Call.Bound at hbound
  cases hcallee : c.callee with
  | held slot =>
    rw [hcallee] at hname
    cases hname
  | named other =>
    rw [hcallee] at hname
    cases hname
    have halive : t.registry.bind w.catalog.registry? = some r := by
      rw [W.registry ht, Option.bind_some, W.alive]
    rw [Frame.callee]
    simp only [halive]
  | known ref =>
    rw [hcallee] at hname hbound
    cases hname
    obtain ⟨other, u, hu, rfl, -⟩ := hbound
    have hu' := hsub other u hu
    have hother : u.ref.name = other := W.name hu'
    have hfound : w.catalog.template? u.ref.id = some u := W.found hu'
    rw [Frame.callee, hfound, hother, hu']

/-- The arguments of such a call fit that template. -/
theorem fits (ht : r.resolve? caller = some t) (hc : .action (.call c) ∈ t.instrs)
    (hname : c.callee.byName = .named name) {u : Template} (hu : r.resolve? name = some u)
    {a : Argument} (ha : a ∈ c.args) : a.Fits u := by
  obtain ⟨known, hsub, hbound⟩ := W.calls ht hc
  unfold Call.Bound at hbound
  cases hcallee : c.callee with
  | held slot =>
    rw [hcallee] at hname
    cases hname
  | named other =>
    rw [hcallee] at hbound
    exact .inl (hbound a ha)
  | known ref =>
    rw [hcallee] at hname hbound
    cases hname
    obtain ⟨other, u', hu', rfl, hargs⟩ := hbound
    have hother : u'.ref.name = other := W.name (hsub other u' hu')
    have heq := hsub other u' hu'
    rw [hother] at hu
    obtain rfl : u = u' := Option.some.inj (hu.symm.trans heq)
    exact .inr (hargs a ha)

/-- A call of a template in a slot is bound to no slots of that template. -/
theorem slot_eq_none (ht : r.resolve? caller = some t) (hc : .action (.call c) ∈ t.instrs)
    {slot : SlotId} (hheld : c.callee = .held slot) {a : Argument} (ha : a ∈ c.args) :
    a.slot = none := by
  obtain ⟨known, -, hbound⟩ := W.calls ht hc
  unfold Call.Bound at hbound
  rw [hheld] at hbound
  exact hbound a ha

end World.Wired

theorem registry_of_compile {name : String} {source : List Char} {o : CompileOptions} {p : Program}
    (h : compile name source o = .ok p) : p.registry = o.registry := by
  unfold compile at h
  split at h
  · cases h
  · cases h
    rfl

section Files

variable {w : World} {o : ReadOptions} {c c' : Catalog} {sourceName : String} {source : List Char}
  {segments : List Segment} {id : RegistryId} {r : Registry}
  (hsplit : splitSegments sourceName source = .ok segments)
  (h : readTemplates c sourceName source o = .ok (c', id, r))
include hsplit h

theorem resolve?_eq_none_iff {name : String} :
    r.resolve? name = none ↔ name ∉ segments.map Segment.name := by
  obtain ⟨hnone, -, hcompiled⟩ := readTemplates_spec hsplit h
  refine ⟨fun hresolve hmem => ?_, hnone name⟩
  obtain ⟨s, hs, rfl⟩ := List.mem_map.mp hmem
  obtain ⟨t, ht, -⟩ := hcompiled s hs
  rw [hresolve] at ht
  cases ht

theorem exists_segment {name : String} {t : Template} (ht : r.resolve? name = some t) :
    ∃ s ∈ segments, s.name = name ∧ s.CompilesTo o (segments.map Segment.name) id r t := by
  obtain ⟨-, -, hcompiled⟩ := readTemplates_spec hsplit h
  have hmem : name ∈ segments.map Segment.name := by
    refine Decidable.byContradiction fun hmem => ?_
    rw [(resolve?_eq_none_iff hsplit h).mpr hmem] at ht
    cases ht
  obtain ⟨s, hs, rfl⟩ := List.mem_map.mp hmem
  obtain ⟨t', ht', hcompiles⟩ := hcompiled s hs
  obtain rfl : t = t' := Option.some.inj (ht.symm.trans ht')
  exact ⟨s, hs, rfl, hcompiles⟩

theorem name_of_readTemplates {name : String} {t : Template} (ht : r.resolve? name = some t) :
    t.name = name := by
  obtain ⟨s, -, rfl, known, -, hcompile⟩ := exists_segment hsplit h ht
  exact name_of_compile hcompile

/-- A file that was read into a catalog of a host program is wired as long as its registry lives. -/
theorem wired_of_readTemplates (hw : w.catalog.Produced)
    (halive : w.catalog.registry? id = some r) :
    w.Wired id r where
  alive := halive
  found hu := World.Knows.template?_id hw (.inr ⟨id, r, _, halive, hu⟩)
  name hu := name_of_readTemplates hsplit h hu
  registry hu := by
    obtain ⟨s, -, -, known, -, hcompile⟩ := exists_segment hsplit h hu
    exact registry_of_compile hcompile
  calls hu hc := by
    obtain ⟨s, -, -, known, hsub, hcompile⟩ := exists_segment hsplit h hu
    exact ⟨known, hsub, ((wellReferenced_of_compile hcompile).instrs _ hc).call _ rfl⟩

/-- All that a segment of a file can call is among the names of the file. -/
theorem names_forSegment {names names' : List String} {known : Registry} (hsub : known.Sub r)
    (hnames : ∀ name, name ∈ segments.map Segment.name → name ∈ names')
    (hforward : ∀ name ∈ names, name ∈ names') (s : Segment) :
    (o.forSegment names id known s).Names names' where
  known name u hu := by
    have hu' := hsub name u hu
    obtain ⟨s', hs', rfl, -⟩ := exists_segment hsplit h hu'
    exact ⟨name_of_readTemplates hsplit h hu', hnames _ (List.mem_map_of_mem hs')⟩
  forward := hforward

end Files

theorem names_perm {segments₁ segments₂ : List Segment}
    (hperm : (segments₁.map Segment.content).Perm (segments₂.map Segment.content)) :
    (segments₁.map Segment.name).Perm (segments₂.map Segment.name) := by
  have hnames := hperm.map Prod.fst
  rwa [List.map_map, List.map_map] at hnames

/-- Two files with the same segments, in any order, have templates under the same names, and seen by
name they are the same programs. -/
theorem byName_eq_of_perm {o : ReadOptions} {c₁ c₁' c₂ c₂' : Catalog} {name₁ name₂ : String}
    {source₁ source₂ : List Char} {segments₁ segments₂ : List Segment} {id₁ id₂ : RegistryId}
    {r₁ r₂ : Registry} (hsplit₁ : splitSegments name₁ source₁ = .ok segments₁)
    (hsplit₂ : splitSegments name₂ source₂ = .ok segments₂)
    (hperm : (segments₁.map Segment.content).Perm (segments₂.map Segment.content))
    (h₁ : readTemplates c₁ name₁ source₁ o = .ok (c₁', id₁, r₁))
    (h₂ : readTemplates c₂ name₂ source₂ o = .ok (c₂', id₂, r₂)) {name : String} {t₁ : Template}
    (ht₁ : r₁.resolve? name = some t₁) :
    ∃ t₂, r₂.resolve? name = some t₂ ∧ t₁.byName = t₂.byName := by
  obtain ⟨s₁, hs₁, rfl, known₁, hsub₁, hcompile₁⟩ := exists_segment hsplit₁ h₁ ht₁
  obtain ⟨s₂, hs₂, hcontent⟩ := List.mem_map.mp (hperm.mem_iff.mp (List.mem_map_of_mem hs₁))
  obtain ⟨hname, hrest⟩ := Prod.mk.inj hcontent
  obtain ⟨hparams, hbody⟩ := Prod.mk.inj hrest
  obtain ⟨-, -, hcompiled⟩ := readTemplates_spec hsplit₂ h₂
  obtain ⟨t₂, ht₂, known₂, hsub₂, hcompile₂⟩ := hcompiled s₂ hs₂
  refine ⟨t₂, hname ▸ ht₂, ?_⟩
  have hnames (name : String) (hmem : name ∈ segments₂.map Segment.name) :
      name ∈ segments₁.map Segment.name := (names_perm hperm).mem_iff.mpr hmem
  have hsame₁ := compile_byName (names_forSegment hsplit₁ h₁ hsub₁ (fun _ h => h) (fun _ h => h) s₁)
    hcompile₁
  have hsame₂ := compile_byName (names_forSegment hsplit₂ h₂ hsub₂ hnames hnames s₂) hcompile₂
  have hoptions : (o.forSegment (segments₂.map Segment.name) id₂ known₂ s₂).byName
      (segments₁.map Segment.name) =
        (o.forSegment (segments₁.map Segment.name) id₁ known₁ s₁).byName
          (segments₁.map Segment.name) := by
    simp only [ReadOptions.forSegment, CompileOptions.byName, hparams]
  rw [hoptions, hname, hbody, hsame₁] at hsame₂
  exact Except.ok.inj hsame₂

end TemplateEngine

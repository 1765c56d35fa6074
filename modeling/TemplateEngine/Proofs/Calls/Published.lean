import TemplateEngine.Proofs.Termination.Produced
import TemplateEngine.Proofs.Calls.Sound

/-! Templates are told apart by their numbers: a template is found under its own number only, and
what a registry holds is in the catalog too. -/
namespace TemplateEngine

namespace Catalog

/-- Each template is in the catalog under its number, those in the registries too. -/
structure Numbered (c : Catalog) : Prop where
  templates : ∀ id u, c.template? id = some u → u.id = id
  registries : ∀ r, some r ∈ c.registries → ∀ e ∈ r.entries, c.template? e.2.id = some e.2

variable {c : Catalog}

theorem template?_publish (c : Catalog) (p : Program) (id : TemplateId) :
    (c.publish p).1.template? id =
      if id = c.templates.size then some (c.publish p).2 else c.template? id :=
  Array.getElem?_push

theorem template?_publish_of_some {id : TemplateId} {u : Template} (h : c.template? id = some u)
    (p : Program) : (c.publish p).1.template? id = some u := by
  have hlt : id < c.templates.size := (Array.getElem?_eq_some_iff.mp h).1
  rw [template?_publish, if_neg (Nat.ne_of_lt hlt), h]

theorem template?_publish_self (c : Catalog) (p : Program) :
    (c.publish p).1.template? (c.publish p).2.id = some (c.publish p).2 := by
  rw [template?_publish]
  exact if_pos rfl

namespace Numbered

theorem publish (h : c.Numbered) (p : Program) : (c.publish p).1.Numbered where
  templates id u hu := by
    rw [template?_publish] at hu
    split at hu
    · next hid =>
      cases hu
      exact hid.symm
    · exact h.templates id u hu
  registries r hr e he := template?_publish_of_some (h.registries r hr e he) p

theorem reserve (h : c.Numbered) : c.reserve.1.Numbered where
  templates := h.templates
  registries r hr := by
    obtain hmem | heq := Array.mem_push.mp hr
    · exact h.registries r hmem
    · cases heq

theorem keep (h : c.Numbered) {r : Registry} (hr : ∀ e ∈ r.entries, c.template? e.2.id = some e.2)
    (id : RegistryId) : (c.keep id r).Numbered where
  templates := h.templates
  registries r' hr' := by
    obtain hmem | heq := Array.mem_or_eq_of_mem_setIfInBounds hr'
    · exact h.registries r' hmem
    · cases heq
      exact hr

theorem drop (h : c.Numbered) (id : RegistryId) : (c.drop id).Numbered where
  templates := h.templates
  registries r hr := by
    obtain hmem | heq := Array.mem_or_eq_of_mem_setIfInBounds hr
    · exact h.registries r hmem
    · cases heq

end Numbered

end Catalog

theorem readSegments_numbered {source : List Char} {o : ReadOptions} {names : List String}
    {id : RegistryId} {c c' : Catalog} {known r : Registry} {segments : List Segment}
    (hc : c.Numbered) (hknown : ∀ e ∈ known.entries, c.template? e.2.id = some e.2)
    (h : readSegments source o names id c known segments = .ok (c', r)) :
    c'.Numbered ∧ ∀ e ∈ r.entries, c'.template? e.2.id = some e.2 := by
  induction segments generalizing c known with
  | nil =>
    cases h
    exact ⟨hc, hknown⟩
  | cons s rest ih =>
    rw [readSegments] at h
    split at h
    · cases h
    · next p _ =>
      refine ih (hc.publish p) ?_ h
      intro e he
      obtain hmem | heq := Registry.mem_register he
      · exact Catalog.template?_publish_of_some (hknown e hmem) p
      · rw [heq]
        exact c.template?_publish_self p

theorem Catalog.Produced.numbered {c : Catalog} (h : c.Produced) : c.Numbered := by
  induction h with
  | empty => exact ⟨by simp [Catalog.template?], by simp⟩
  | publish _ _ ih => exact ih.publish _
  | read _ hread ih =>
    obtain ⟨segments, -, hread⟩ := bind_eq_ok hread
    obtain ⟨⟨c', r⟩, hsegments, hread⟩ := bind_eq_ok hread
    cases hread
    obtain ⟨hc', hr⟩ := readSegments_numbered ih.reserve (by simp) hsegments
    exact hc'.keep hr _
  | reserve _ ih => exact ih.reserve
  | keep id _ hr ih =>
    refine ih.keep (fun e he => ?_) id
    obtain ⟨tid, htid⟩ := hr e he
    rwa [ih.templates tid _ htid]
  | drop id _ ih => exact ih.drop id

theorem registries_of_readSegments {source : List Char} {o : ReadOptions} {names : List String}
    {id : RegistryId} {c c' : Catalog} {known r : Registry} {segments : List Segment}
    (h : readSegments source o names id c known segments = .ok (c', r)) :
    c'.registries = c.registries := by
  induction segments generalizing c known with
  | nil =>
    cases h
    rfl
  | cons s rest ih =>
    rw [readSegments] at h
    split at h
    · cases h
    · next p _ =>
      have hrest : c'.registries = (c.publish p).1.registries := ih h
      exact hrest

/-- Reading a file adds its registry and leaves all others as they are. -/
theorem registry?_readTemplates {c c' : Catalog} {name : String} {source : List Char}
    {o : ReadOptions} {id : RegistryId} {r : Registry}
    (h : readTemplates c name source o = .ok (c', id, r)) (other : RegistryId) :
    c'.registry? other = if other = id then some r else c.registry? other := by
  obtain ⟨segments, -, h⟩ := bind_eq_ok h
  obtain ⟨⟨c₁, r₁⟩, hsegments, h⟩ := bind_eq_ok h
  cases h
  have hregistries : c₁.registries = c.registries.push none := registries_of_readSegments hsegments
  change (c₁.registries.setIfInBounds c.registries.size (some r))[other]?.join =
    if other = c.registries.size then some r else c.registries[other]?.join
  rw [hregistries, Array.getElem?_setIfInBounds, Array.size_push, Array.getElem?_push]
  by_cases hid : other = c.registries.size
  · subst hid
    simp
  · simp [hid, Ne.symm hid]

/-- The registry of a file is alive once the file is read. -/
theorem registry?_of_readTemplates {c c' : Catalog} {name : String} {source : List Char}
    {o : ReadOptions} {id : RegistryId} {r : Registry}
    (h : readTemplates c name source o = .ok (c', id, r)) : c'.registry? id = some r := by
  rw [registry?_readTemplates h, if_pos rfl]

theorem World.Knows.template?_id {w : World} (hw : w.catalog.Produced) {u : Template}
    (h : w.Knows u) : w.catalog.template? u.id = some u := by
  obtain ⟨id, hid⟩ | ⟨id, r, name, hr, hname⟩ := h
  · rwa [hw.numbered.templates id u hid]
  · obtain ⟨entry, hentry, rfl⟩ := Option.bind_eq_some_iff.mp hr
    exact hw.numbered.registries r (Array.mem_of_getElem? hentry) _ (Registry.mem_of_resolve? hname)

theorem World.distinctIds {w : World} (hw : w.catalog.Produced) : DistinctIds w.Knows := by
  intro u u' hu hu' hid
  have h := hu.template?_id hw
  rw [hid, hu'.template?_id hw] at h
  exact (Option.some.inj h).symm

end TemplateEngine

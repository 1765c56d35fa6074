import TemplateEngine.Proofs.Nested.Evaluation
import TemplateEngine.Segment.Read

/-! All that the templates of a host program can come from is compiling, on its own or file by file.
So whatever a call finds at run time was compiled. -/
namespace TemplateEngine

def Template.IsCompiled (t : Template) : Prop :=
  ∃ source o, compile t.name source o = .ok t.toProgram

theorem Template.IsCompiled.exists_isNested {t : Template} (h : t.IsCompiled) :
    ∃ b, t.IsNested b := by
  obtain ⟨source, o, hcompile⟩ := h
  obtain ⟨d, hdraft, -⟩ := compile_eq_ok_iff.mp hcompile
  exact ⟨d.body, source, o, d, hcompile, hdraft, rfl⟩

namespace Catalog

/-- A catalog that a host program can have: its templates were compiled one by one or read from
files, and its registries hold some of them. -/
inductive Produced : Catalog → Prop where
  | empty : Produced {}
  | publish {c : Catalog} {name : String} {source : List Char} {o : CompileOptions} {p : Program} :
      Produced c → compile name source o = .ok p → Produced (c.publish p).1
  | read {c c' : Catalog} {name : String} {source : List Char} {o : ReadOptions} {id : RegistryId}
      {r : Registry} : Produced c → readTemplates c name source o = .ok (c', id, r) → Produced c'
  | reserve {c : Catalog} : Produced c → Produced c.reserve.1
  | keep {c : Catalog} {r : Registry} (id : RegistryId) : Produced c →
      (∀ e ∈ r.entries, ∃ id, c.template? id = some e.2) → Produced (c.keep id r)
  | drop {c : Catalog} (id : RegistryId) : Produced c → Produced (c.drop id)

/-- Every template in the catalog and in its registries was compiled. -/
structure AllCompiled (c : Catalog) : Prop where
  templates : ∀ t ∈ c.templates, t.IsCompiled
  registries : ∀ r, some r ∈ c.registries → ∀ e ∈ r.entries, e.2.IsCompiled

variable {c : Catalog}

theorem AllCompiled.publish (h : c.AllCompiled) {name : String} {source : List Char}
    {o : CompileOptions} {p : Program} (hp : compile name source o = .ok p) :
    (c.publish p).1.AllCompiled ∧ (c.publish p).2.IsCompiled := by
  have hcompiled : (c.publish p).2.IsCompiled := ⟨source, o, (name_of_compile hp).symm ▸ hp⟩
  refine ⟨⟨?_, h.registries⟩, hcompiled⟩
  intro t ht
  obtain ht | rfl := Array.mem_push.mp ht
  · exact h.templates t ht
  · exact hcompiled

theorem AllCompiled.keep (h : c.AllCompiled) {r : Registry}
    (hr : ∀ e ∈ r.entries, e.2.IsCompiled) (id : RegistryId) : (c.keep id r).AllCompiled where
  templates := h.templates
  registries r' hr' := by
    obtain hmem | heq := Array.mem_or_eq_of_mem_setIfInBounds hr'
    · exact h.registries r' hmem
    · cases heq
      exact hr

theorem AllCompiled.drop (h : c.AllCompiled) (id : RegistryId) : (c.drop id).AllCompiled where
  templates := h.templates
  registries r hr := by
    obtain hmem | heq := Array.mem_or_eq_of_mem_setIfInBounds hr
    · exact h.registries r hmem
    · cases heq

theorem AllCompiled.reserve (h : c.AllCompiled) : c.reserve.1.AllCompiled where
  templates := h.templates
  registries r hr := by
    obtain hmem | heq := Array.mem_push.mp hr
    · exact h.registries r hmem
    · cases heq

end Catalog

theorem Registry.mem_register {r : Registry} {name : String} {t : Template} {e : String × Template}
    (h : e ∈ (r.register name t).entries) : e ∈ r.entries ∨ e.2 = t := by
  obtain ⟨entries⟩ := r
  simp only [register] at h ⊢
  induction entries with
  | nil =>
    simp only [register.go, List.mem_singleton] at h
    exact .inr (h ▸ rfl)
  | cons first rest ih =>
    obtain ⟨n, old⟩ := first
    simp only [register.go] at h
    split at h
    · obtain rfl | hmem := List.mem_cons.mp h
      · exact .inr rfl
      · exact .inl (List.mem_cons_of_mem _ hmem)
    · obtain rfl | hmem := List.mem_cons.mp h
      · exact .inl List.mem_cons_self
      · exact (ih hmem).imp_left (List.mem_cons_of_mem _)

theorem readSegments_allCompiled {source : List Char} {o : ReadOptions} {names : List String}
    {id : RegistryId} {c c' : Catalog} {known r : Registry} {segments : List Segment}
    (hc : c.AllCompiled) (hknown : ∀ e ∈ known.entries, e.2.IsCompiled)
    (h : readSegments source o names id c known segments = .ok (c', r)) :
    c'.AllCompiled ∧ ∀ e ∈ r.entries, e.2.IsCompiled := by
  induction segments generalizing c known with
  | nil =>
    cases h
    exact ⟨hc, hknown⟩
  | cons s rest ih =>
    rw [readSegments] at h
    split at h
    · cases h
    · next p hp =>
      obtain ⟨hc', hcompiled⟩ := hc.publish hp
      refine ih hc' ?_ h
      intro e he
      obtain hmem | heq := Registry.mem_register he
      · exact hknown e hmem
      · exact heq ▸ hcompiled

theorem Catalog.Produced.allCompiled {c : Catalog} (h : c.Produced) : c.AllCompiled := by
  induction h with
  | empty => exact ⟨by simp, by simp⟩
  | publish _ hp ih => exact (ih.publish hp).1
  | read _ hread ih =>
    obtain ⟨segments, -, hread⟩ := bind_eq_ok hread
    obtain ⟨⟨c', r⟩, hsegments, hread⟩ := bind_eq_ok hread
    cases hread
    obtain ⟨hc', hr⟩ := readSegments_allCompiled ih.reserve (by simp) hsegments
    exact hc'.keep hr _
  | reserve _ ih => exact ih.reserve
  | keep id _ hr ih =>
    refine ih.keep ?_ id
    intro e he
    obtain ⟨tid, htid⟩ := hr e he
    exact ih.templates _ (Array.mem_of_getElem? htid)
  | drop id _ ih => exact ih.drop id

theorem World.Knows.isCompiled {w : World} {u : Template} (hw : w.catalog.Produced)
    (h : w.Knows u) : u.IsCompiled := by
  have hall := hw.allCompiled
  obtain ⟨id, hid⟩ | ⟨id, r, name, hr, hname⟩ := h
  · exact hall.templates u (Array.mem_of_getElem? hid)
  · have hmem : some r ∈ w.catalog.registries := by
      obtain ⟨entry, hentry, rfl⟩ := Option.bind_eq_some_iff.mp hr
      exact Array.mem_of_getElem? hentry
    exact hall.registries r hmem _ (Registry.mem_of_resolve? hname)

end TemplateEngine

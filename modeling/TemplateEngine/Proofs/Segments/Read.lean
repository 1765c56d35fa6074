import TemplateEngine.Proofs.Registry.History
import TemplateEngine.Proofs.Segments.InFile
import TemplateEngine.Segment.Read

/-! What reading a file comes to: each segment is compiled under its own name, and what was known
then is what the registry of the file has in the end. -/
namespace TemplateEngine

/-- A new name comes last. -/
theorem Registry.entries_register {r : Registry} {name : String} (h : name ∉ r.names)
    (t : Template) : (r.register name t).entries = r.entries ++ [(name, t)] := by
  obtain ⟨entries⟩ := r
  simp only [names, register] at h ⊢
  induction entries with
  | nil => rfl
  | cons e rest ih =>
    obtain ⟨hne, hrest⟩ := not_or.mp (mt List.mem_cons.mpr h)
    rw [register.go, if_neg (Ne.symm hne), ih hrest, List.cons_append]

theorem Registry.resolve?_of_mem {r : Registry} (hnodup : r.names.Nodup) {name : String}
    {t : Template} (h : (name, t) ∈ r.entries) : r.resolve? name = some t := by
  obtain ⟨before, after, heq⟩ := List.append_of_mem h
  refine List.lookup_eq_some_iff.mpr ⟨before, after, heq, fun e he => ?_⟩
  rw [names, heq, List.map_append, List.map_cons] at hnodup
  have hne := (List.nodup_append.mp hnodup).2.2 _ (List.mem_map_of_mem he) name List.mem_cons_self
  exact bne_iff_ne.mpr hne.symm

theorem Registry.mem_names_of_resolve? {r : Registry} {name : String} {t : Template}
    (h : r.resolve? name = some t) : name ∈ r.names :=
  List.mem_map.mpr ⟨_, mem_of_resolve? h, rfl⟩

/-- What is found in one registry is found in the other. -/
def Registry.Sub (known r : Registry) : Prop :=
  ∀ name u, known.resolve? name = some u → r.resolve? name = some u

theorem Registry.sub_of_prefix {known r : Registry} (h : known.entries <+: r.entries) :
    known.Sub r := by
  obtain ⟨more, hmore⟩ := h
  intro name u hu
  rw [resolve?] at hu
  rw [resolve?, ← hmore, List.lookup_append, hu, Option.some_or]

/-- The template is what the segment was compiled to, in a file with this registry. -/
def Segment.CompilesTo (o : ReadOptions) (names : List String) (id : RegistryId) (r : Registry)
    (s : Segment) (t : Template) : Prop :=
  ∃ known, known.Sub r ∧ compile s.name s.body (o.forSegment names id known s) = .ok t.toProgram

/-- What a reader of templates sees of a segment, wherever in the file it stands. -/
def Segment.content (s : Segment) : String × List String × List Char :=
  (s.name, s.params, s.body)

variable {o : ReadOptions} {names : List String} {id : RegistryId}

theorem readSegments_cons {source : List Char} {c c' : Catalog} {known r : Registry} {s : Segment}
    {rest : List Segment} (h : readSegments source o names id c known (s :: rest) = .ok (c', r)) :
    ∃ p, compile s.name s.body (o.forSegment names id known s) = .ok p ∧
      readSegments source o names id (c.publish p).1 (known.register s.name (c.publish p).2) rest =
        .ok (c', r) := by
  rw [readSegments] at h
  split at h
  · cases h
  · next p hp => exact ⟨p, hp, h⟩

/-- The first segments are read as if they were all. -/
theorem readSegments_append (source : List Char) (c : Catalog) (known : Registry)
    (before rest : List Segment) :
    readSegments source o names id c known (before ++ rest) = (do
      let (c, known) ← readSegments source o names id c known before
      readSegments source o names id c known rest) := by
  induction before generalizing c known with
  | nil => rfl
  | cons s before ih =>
    rw [List.cons_append, readSegments, readSegments]
    split
    · rfl
    · exact ih _ _

/-- Segments with new names are put after what is known, in their order. -/
theorem readSegments_names {source : List Char} {c c' : Catalog} {known r : Registry}
    {segments : List Segment} (h : readSegments source o names id c known segments = .ok (c', r))
    (hnodup : (known.names ++ segments.map Segment.name).Nodup) :
    known.entries <+: r.entries ∧ r.names = known.names ++ segments.map Segment.name := by
  induction segments generalizing c known with
  | nil =>
    cases h
    exact ⟨List.prefix_rfl, (List.append_nil _).symm⟩
  | cons s rest ih =>
    obtain ⟨p, -, h⟩ := readSegments_cons h
    have hfresh : s.name ∉ known.names := fun hmem =>
      (List.nodup_append.mp hnodup).2.2 _ hmem _ List.mem_cons_self rfl
    have hnames : (known.register s.name (c.publish p).2).names ++ rest.map Segment.name =
        known.names ++ (s :: rest).map Segment.name := by
      rw [Registry.names_register, if_neg hfresh, List.append_assoc]
      rfl
    obtain ⟨hfirst, hall⟩ := ih h (hnames ▸ hnodup)
    rw [Registry.entries_register hfresh] at hfirst
    exact ⟨(List.prefix_append _ _).trans hfirst, hall.trans hnames⟩

/-- Each segment was compiled against the templates of those before it, and its own came next. -/
theorem readSegments_split {source : List Char} {c c' : Catalog} {r : Registry}
    {before after : List Segment} {s : Segment}
    (hnodup : ((before ++ s :: after).map Segment.name).Nodup)
    (h : readSegments source o names id c {} (before ++ s :: after) = .ok (c', r)) :
    ∃ t, (s.name, t) ∈ r.entries ∧
      compile s.name s.body (o.forSegment names id ⟨r.entries.take before.length⟩ s) =
        .ok t.toProgram := by
  rw [readSegments_append] at h
  obtain ⟨⟨c₁, known⟩, hbefore, h⟩ := bind_eq_ok h
  dsimp only at h
  rw [List.map_append] at hnodup
  have hknown : known.names = before.map Segment.name :=
    (readSegments_names hbefore (List.nodup_append.mp hnodup).1).2
  rw [← hknown] at hnodup
  have hfirst := (readSegments_names h hnodup).1
  have htake : r.entries.take before.length = known.entries := by
    rw [← List.length_map Segment.name, ← hknown, Registry.names, List.length_map]
    exact (List.prefix_iff_eq_take.mp hfirst).symm
  obtain ⟨p, hp, hafter⟩ := readSegments_cons h
  refine ⟨(c₁.publish p).2, ?_, htake ▸ hp⟩
  have hfresh : s.name ∉ known.names := fun hmem =>
    (List.nodup_append.mp hnodup).2.2 _ hmem _ List.mem_cons_self rfl
  have hmore : (known.register s.name (c₁.publish p).2).entries <+: r.entries := by
    refine (readSegments_names hafter ?_).1
    rwa [Registry.names_register, if_neg hfresh, List.append_assoc]
  rw [Registry.entries_register hfresh] at hmore
  exact hmore.subset (List.mem_append_right _ List.mem_cons_self)

section Files

variable {c c' : Catalog} {sourceName : String} {source : List Char} {segments : List Segment}
  {r : Registry} (hsplit : splitSegments sourceName source = .ok segments)
include hsplit

theorem nodup_of_splitSegments : (segments.map Segment.name).Nodup :=
  (splits_of_splitSegments hsplit).nodup.1

variable (h : readTemplates c sourceName source o = .ok (c', id, r))
include h

theorem readSegments_of_readTemplates :
    id = c.reserve.2 ∧ ∃ c₁, readSegments source o (segments.map Segment.name) id c.reserve.1 {}
      segments = .ok (c₁, r) := by
  obtain ⟨segments', hsplit', h⟩ := bind_eq_ok h
  obtain rfl : segments = segments' := Except.ok.inj (hsplit.symm.trans hsplit')
  obtain ⟨⟨c₁, r₁⟩, hread, h⟩ := bind_eq_ok h
  cases h
  exact ⟨rfl, c₁, hread⟩

/-- The templates of a file have the names of its segments, in their order. -/
theorem names_readTemplates : r.names = segments.map Segment.name := by
  obtain ⟨-, c₁, hread⟩ := readSegments_of_readTemplates hsplit h
  exact (readSegments_names hread (nodup_of_splitSegments hsplit)).2

/-- A segment has a template in the registry, which was compiled against those of the segments
before it. -/
theorem compile_of_readTemplates {before after : List Segment} {s : Segment}
    (hsegments : segments = before ++ s :: after) :
    ∃ t, r.resolve? s.name = some t ∧
      compile s.name s.body (o.forSegment (segments.map Segment.name) id
        ⟨r.entries.take before.length⟩ s) = .ok t.toProgram := by
  obtain ⟨-, c₁, hread⟩ := readSegments_of_readTemplates hsplit h
  have hnodup := nodup_of_splitSegments hsplit
  subst hsegments
  obtain ⟨t, hmem, hcompile⟩ := readSegments_split hnodup hread
  refine ⟨t, Registry.resolve?_of_mem ?_ hmem, hcompile⟩
  rwa [names_readTemplates hsplit h]

/-- The registry of a file has exactly the names of its segments, and under each of them what the
segment was compiled to. -/
theorem readTemplates_spec :
    (∀ name, name ∉ segments.map Segment.name → r.resolve? name = none) ∧
      (segments.map Segment.name).Nodup ∧
      ∀ s ∈ segments, ∃ t, r.resolve? s.name = some t ∧
        s.CompilesTo o (segments.map Segment.name) id r t := by
  refine ⟨fun name hname => ?_, nodup_of_splitSegments hsplit, fun s hs => ?_⟩
  · rw [← names_readTemplates hsplit h] at hname
    exact Option.eq_none_iff_forall_not_mem.mpr fun t ht =>
      hname (Registry.mem_names_of_resolve? ht)
  · obtain ⟨before, after, hsegments⟩ := List.append_of_mem hs
    obtain ⟨t, ht, hcompile⟩ := compile_of_readTemplates hsplit h hsegments
    exact ⟨t, ht, _, Registry.sub_of_prefix (List.take_prefix _ _), hcompile⟩

end Files

end TemplateEngine

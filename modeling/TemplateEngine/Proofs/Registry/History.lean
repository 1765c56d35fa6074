import Mathlib.Data.List.Nodup
import TemplateEngine.Registry

/-! What a registry answers after any registrations. A registry is one list of names with their
templates. It may as well be a table of the templates and, next to it, the order of the names; the
two then have to be kept consistent, and give the same answers. -/
namespace TemplateEngine

namespace Registry

/-- What was registered under which name, from the first registration on. -/
abbrev History := List (String × Template)

namespace History

def names (history : History) : List String :=
  history.map (·.1)

/-- The first registration of one name comes before the first one of the other. -/
def Before (history : History) (first second : String) : Prop :=
  history.names.idxOf first < history.names.idxOf second

/-- The last registration of the name is that of the template. -/
def Last (history : History) (name : String) (t : Template) : Prop :=
  ∃ before after : History, history = before ++ (name, t) :: after ∧ name ∉ after.names

end History

/-- All that can be asked of a registry. -/
structure Answers where
  names : List String
  size : Nat
  isEmpty : Bool
  contains : String → Bool
  resolve? : String → Option Template

/-- Each registered name is listed once, in the order of the first registrations, and found with the
template of its last one. No other name is listed or found. -/
structure Answers.Keep (a : Answers) (history : History) : Prop where
  nodup : a.names.Nodup
  mem_names (name : String) : name ∈ a.names ↔ name ∈ history.names
  ordered : a.names.Pairwise history.Before
  size : a.size = a.names.length
  isEmpty : a.isEmpty ↔ a.names = []
  contains (name : String) : a.contains name ↔ name ∈ a.names
  found (name : String) : (a.resolve? name).isSome ↔ name ∈ a.names
  resolve? (name : String) (t : Template) : a.resolve? name = some t ↔ history.Last name t

def answers (r : Registry) : Answers :=
  ⟨r.names, r.size, r.isEmpty, r.contains, r.resolve?⟩

def ofHistory (history : History) : Registry :=
  history.foldl (fun r e => r.register e.1 e.2) {}

end Registry

/-- The templates by name, and next to them the names in the order of their first registration. -/
structure IndexedRegistry where
  templates : Std.HashMap String Template := {}
  order : List String := []

namespace IndexedRegistry

/-- A name comes into the order when it comes into the table. -/
def register (r : IndexedRegistry) (name : String) (t : Template) : IndexedRegistry :=
  let (known, templates) := r.templates.containsThenInsert name t
  ⟨templates, if known then r.order else r.order ++ [name]⟩

def answers (r : IndexedRegistry) : Registry.Answers where
  names := r.order
  size := r.templates.size
  isEmpty := r.templates.isEmpty
  contains name := r.templates.contains name
  resolve? name := r.templates[name]?

def ofHistory (history : Registry.History) : IndexedRegistry :=
  history.foldl (fun r e => r.register e.1 e.2) {}

end IndexedRegistry

/-! Registering a template. -/

namespace Registry

theorem lookup_cons_eq (name : String) (t : Template) (entries : History) (name' : String) :
    ((name, t) :: entries).lookup name' =
      if name' = name then some t else entries.lookup name' := by
  rw [List.lookup_cons]
  by_cases h : name' = name
  · rw [if_pos h, beq_iff_eq.mpr h]
  · rw [if_neg h, beq_eq_false_iff_ne.mpr h]

theorem names_register (r : Registry) (name : String) (t : Template) :
    (r.register name t).names = if name ∈ r.names then r.names else r.names ++ [name] := by
  unfold register names
  dsimp only
  generalize r.entries = entries
  fun_induction register.go name t entries with
  | case1 => rfl
  | case2 old rest => exact (if_pos List.mem_cons_self).symm
  | case3 n old rest hn ih =>
    have hmem : name ∈ ((n, old) :: rest).map (·.1) ↔ name ∈ rest.map (·.1) := by
      simp [Ne.symm hn]
    rw [List.map_cons, ih]
    simp only [hmem]
    split <;> rfl

theorem resolve?_register (r : Registry) (name : String) (t : Template) (name' : String) :
    (r.register name t).resolve? name' = if name' = name then some t else r.resolve? name' := by
  unfold register resolve?
  dsimp only
  generalize r.entries = entries
  fun_induction register.go name t entries with
  | case1 => rw [lookup_cons_eq]
  | case2 old rest =>
    simp only [lookup_cons_eq]
    split <;> rfl
  | case3 n old rest hn ih =>
    simp only [lookup_cons_eq, ih]
    by_cases hname : name' = n
    · rw [if_pos hname, if_pos hname, if_neg (hname ▸ hn)]
    · rw [if_neg hname, if_neg hname]

variable {r : Registry} {history : History}

theorem isSome_resolve?_iff {name : String} : (r.resolve? name).isSome ↔ name ∈ r.names := by
  rw [resolve?, List.lookup_isSome_iff, names, List.mem_map]
  simp only [beq_iff_eq, eq_comm (a := name)]

theorem isEmpty_iff : r.isEmpty ↔ r.names = [] := by
  rw [isEmpty, List.isEmpty_iff, names, List.map_eq_nil_iff]

theorem mem_names_register {name name' : String} {t : Template} :
    name' ∈ (r.register name t).names ↔ name' ∈ r.names ∨ name' = name := by
  rw [names_register]
  split
  · next hname => exact ⟨.inl, fun h => h.elim id (· ▸ hname)⟩
  · rw [List.mem_append, List.mem_singleton]

theorem nodup_register (h : r.names.Nodup) (name : String) (t : Template) :
    (r.register name t).names.Nodup := by
  rw [names_register]
  split
  · exact h
  · next hname =>
    rw [← List.concat_eq_append]
    exact (List.nodup_concat _ _).mpr ⟨hname, h⟩

/-! A history that goes on. -/

namespace History

theorem names_append (history more : History) :
    History.names (history ++ more) = history.names ++ more.names :=
  List.map_append

/-- Later registrations do not change which of two names came first. -/
theorem before_append_iff {first second : String} (hfirst : first ∈ history.names)
    (hsecond : second ∈ history.names) (more : History) :
    History.Before (history ++ more) first second ↔ history.Before first second := by
  rw [Before, names_append, List.idxOf_append_of_mem hfirst, List.idxOf_append_of_mem hsecond]
  rfl

/-- A new name comes after all names so far. -/
theorem before_append_of_new {first second : String} (hfirst : first ∈ history.names)
    (hsecond : second ∉ history.names) (more : History) :
    History.Before (history ++ more) first second := by
  rw [Before, names_append, List.idxOf_append_of_mem hfirst,
    List.idxOf_append_of_notMem hsecond]
  exact Nat.lt_add_right _ (List.idxOf_lt_length_iff.mpr hfirst)

theorem last_iff {name : String} {t : Template} :
    history.Last name t ↔ history.reverse.lookup name = some t := by
  rw [Last, List.lookup_eq_some_iff]
  refine ⟨?_, ?_⟩
  · rintro ⟨before, after, rfl, hname⟩
    refine ⟨after.reverse, before.reverse, by simp, fun e he => bne_iff_ne.mpr ?_⟩
    rintro rfl
    exact hname (List.mem_map_of_mem (List.mem_reverse.mp he))
  · rintro ⟨after, before, hhistory, hname⟩
    refine ⟨before.reverse, after.reverse, ?_, fun hmem => ?_⟩
    · rw [← List.reverse_reverse history, hhistory]
      simp
    · obtain ⟨e, he, rfl⟩ := List.mem_map.mp hmem
      exact bne_iff_ne.mp (hname e (List.mem_reverse.mp he)) rfl

theorem last_append_singleton_iff {name name' : String} {t t' : Template} :
    History.Last (history ++ [(name, t)]) name' t' ↔
      if name' = name then t = t' else history.Last name' t' := by
  rw [last_iff, last_iff, List.reverse_append, List.reverse_singleton, List.singleton_append,
    lookup_cons_eq]
  split
  · exact Option.some_inj
  · rfl

end History

/-- A name that is listed stays where it is. Any other one comes last, as its first registration
does in the history. -/
theorem Answers.Keep.register (h : r.answers.Keep history) (name : String) (t : Template) :
    (r.register name t).answers.Keep (history ++ [(name, t)]) where
  nodup := nodup_register h.nodup name t
  mem_names name' := by
    rw [History.names_append, List.mem_append, ← h.mem_names]
    exact mem_names_register.trans (or_congr_right List.mem_singleton.symm)
  ordered := by
    change (r.register name t).names.Pairwise _
    have hlisted {name' : String} (hname' : name' ∈ r.names) : name' ∈ history.names :=
      (h.mem_names name').mp hname'
    have hordered : r.names.Pairwise (History.Before (history ++ [(name, t)])) :=
      h.ordered.imp_of_mem fun hfirst hsecond =>
        (History.before_append_iff (hlisted hfirst) (hlisted hsecond) _).mpr
    rw [names_register]
    split
    · exact hordered
    · next hname =>
      have hnew : name ∉ history.names := mt (h.mem_names name).mpr hname
      refine List.pairwise_append.mpr ⟨hordered, List.pairwise_singleton _ _, ?_⟩
      intro first hfirst second hsecond
      rw [List.mem_singleton.mp hsecond]
      exact History.before_append_of_new (hlisted hfirst) hnew _
  size := (List.length_map _).symm
  isEmpty := isEmpty_iff
  contains _ := isSome_resolve?_iff
  found _ := isSome_resolve?_iff
  resolve? name' t' := by
    rw [History.last_append_singleton_iff, ← h.resolve?]
    change (r.register name t).resolve? name' = some t' ↔ _
    rw [resolve?_register]
    split
    · exact Option.some_inj
    · rfl

theorem Answers.Keep.run (h : r.answers.Keep history) (more : History) :
    (more.foldl (fun r e => r.register e.1 e.2) r).answers.Keep (history ++ more) := by
  induction more generalizing r history with
  | nil => rwa [List.append_nil]
  | cons e rest ih =>
    have hrest := ih (h.register e.1 e.2)
    rwa [List.append_assoc] at hrest

theorem keep_empty : ({} : Registry).answers.Keep [] where
  nodup := List.nodup_nil
  mem_names _ := Iff.rfl
  ordered := .nil
  size := rfl
  isEmpty := @isEmpty_iff {}
  contains _ := @isSome_resolve?_iff {} _
  found _ := @isSome_resolve?_iff {} _
  resolve? _ _ := (@History.last_iff [] _ _).symm

end Registry

namespace IndexedRegistry

/-- The table has the templates of the registry, and the order its names. -/
structure Agrees (x : IndexedRegistry) (r : Registry) : Prop where
  order : x.order = r.names
  size : x.templates.size = r.names.length
  resolve? (name : String) : x.templates[name]? = r.resolve? name

variable {x : IndexedRegistry} {r : Registry}

theorem Agrees.mem_iff (h : x.Agrees r) {name : String} :
    name ∈ x.templates ↔ name ∈ r.names := by
  rw [Std.HashMap.mem_iff_isSome_getElem?, h.resolve?, Registry.isSome_resolve?_iff]

theorem register_eq (x : IndexedRegistry) (name : String) (t : Template) : x.register name t =
    ⟨x.templates.insert name t, if name ∈ x.templates then x.order else x.order ++ [name]⟩ := by
  simp only [register, Std.HashMap.containsThenInsert_fst, Std.HashMap.containsThenInsert_snd,
    Std.HashMap.contains_iff_mem]

theorem Agrees.register (h : x.Agrees r) (name : String) (t : Template) :
    (x.register name t).Agrees (r.register name t) where
  order := by
    rw [register_eq, Registry.names_register, ← h.order]
    simp only [h.mem_iff, h.order]
  size := by
    rw [register_eq, Registry.names_register]
    dsimp only
    rw [Std.HashMap.size_insert, h.size]
    simp only [h.mem_iff]
    split
    · rfl
    · rw [List.length_append, List.length_singleton]
  resolve? name' := by
    rw [register_eq, Registry.resolve?_register, ← h.resolve?]
    dsimp only
    rw [Std.HashMap.getElem?_insert]
    simp only [beq_iff_eq, eq_comm (a := name)]

theorem Agrees.run (h : x.Agrees r) (history : Registry.History) :
    (history.foldl (fun x e => x.register e.1 e.2) x).Agrees
      (history.foldl (fun r e => r.register e.1 e.2) r) := by
  induction history generalizing x r with
  | nil => exact h
  | cons e rest ih => exact ih (h.register e.1 e.2)

theorem agrees_empty : ({} : IndexedRegistry).Agrees {} where
  order := rfl
  size := Std.HashMap.size_empty
  resolve? _ := Std.HashMap.getElem?_empty

theorem Agrees.answers_eq (h : x.Agrees r) : x.answers = r.answers := by
  have hsize : x.templates.size = r.size := h.size.trans (List.length_map _)
  have hempty : x.templates.isEmpty = r.isEmpty := by
    rw [Std.HashMap.isEmpty_eq_size_eq_zero, hsize, Bool.eq_iff_iff, Registry.isEmpty,
      List.isEmpty_iff, beq_iff_eq]
    exact List.length_eq_zero_iff
  have hcontains : (fun name => x.templates.contains name) = r.contains := by
    funext name
    rw [Std.HashMap.contains_eq_isSome_getElem?, h.resolve?, Registry.contains]
  have hresolve : (fun name : String => x.templates[name]?) = r.resolve? := funext h.resolve?
  rw [answers, Registry.answers, h.order, hsize, hempty, hcontains, hresolve]

end IndexedRegistry

/-- After any registrations, with whatever names repeated, a registry keeps them: it lists each name
once, in the order of the first registrations, and finds the template of the last one. A table with
the order of its names kept next to it gives the same answers. -/
theorem Registry.registrations_kept (history : History) :
    (ofHistory history).answers.Keep history ∧
      (IndexedRegistry.ofHistory history).answers = (ofHistory history).answers :=
  ⟨keep_empty.run history, (IndexedRegistry.agrees_empty.run history).answers_eq⟩

example (first second third : Template) :
    let r := Registry.ofHistory [("a", first), ("z", second), ("a", third)]
    r.names = ["a", "z"] ∧ r.resolve? "a" = some third :=
  ⟨rfl, rfl⟩

end TemplateEngine

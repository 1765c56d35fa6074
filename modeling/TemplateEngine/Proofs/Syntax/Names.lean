import TemplateEngine.Proofs.Subject.Legible
import TemplateEngine.Proofs.Syntax.Heads
import TemplateEngine.Proofs.Syntax.Integers

/-! Names and operands. What may be declared and what may be referred to are told apart by two
readers: `Text.isName` looks at one character after the other, an operand is cut into tokens and
then parsed. They agree on which texts are names. -/
namespace TemplateEngine.Expr

open Grammar

theorem mem_of_mem_headNames {s : String} {ts : List Token} (h : s ∈ headNames ts) :
    .name s ∈ ts ∧ s ∉ Text.reserved := by
  fun_induction headNames ts with
  | case1 => cases h
  | case2 field rest ih =>
    obtain ⟨hmem, hs⟩ := ih h
    exact ⟨List.mem_cons_of_mem _ (List.mem_cons_of_mem _ hmem), hs⟩
  | case3 word rest hreserved ih =>
    obtain ⟨hmem, hs⟩ := ih h
    exact ⟨List.mem_cons_of_mem _ hmem, hs⟩
  | case4 word rest hword ih =>
    obtain rfl | hrest := List.mem_cons.mp h
    · exact ⟨List.mem_cons_self, hword⟩
    · obtain ⟨hmem, hs⟩ := ih hrest
      exact ⟨List.mem_cons_of_mem _ hmem, hs⟩
  | case5 t rest _ _ ih =>
    obtain ⟨hmem, hs⟩ := ih h
    exact ⟨List.mem_cons_of_mem _ hmem, hs⟩

/-- A name is a word of the tokens that does not stand for a value. -/
theorem isName_iff {s : String} : Text.isName s.toList ↔ IsWord s ∧ s ∉ Text.reserved := by
  refine ⟨fun h => ?_, ?_⟩
  · have hword := isWord_of_isName h
    have hreserved := not_reserved_of_isName h
    rw [String.ofList_toList] at hword hreserved
    exact ⟨hword, hreserved⟩
  · rintro ⟨⟨c, rest, hs, hc, hrest⟩, hreserved⟩
    have hchars : s = String.ofList (c :: rest) := by rw [← hs, String.ofList_toList]
    rw [hs, Text.isName, hc, List.all_eq_true.mpr hrest, ← hchars]
    simpa using hreserved

/-- No path of an operand starts with a name that could not be declared. -/
theorem isName_of_occurrence {text : List Char} {e : Ast} (he : parse text = .ok e)
    {x : Occurrence} (hx : x ∈ e.occurrences []) : Text.isName x.name.toList := by
  cases hts : tokens text with
  | error reason =>
    rw [parse_of_tokens_error hts] at he
    cases he
  | ok ts =>
    have hhead : x.name ∈ headNames ts := by
      rw [← headNames_of_parse hts he]
      exact List.mem_map_of_mem hx
    obtain ⟨hmem, hreserved⟩ := mem_of_mem_headNames hhead
    exact isName_iff.mpr ⟨isCut_of_tokens hts _ hmem, hreserved⟩

/-- A name is read as the variable of this name, of which nothing is accessed. -/
theorem parse_of_isName {s : String} (h : Text.isName s.toList) :
    parse s.toList = .ok (.path (.name s) []) := by
  obtain ⟨hword, hreserved⟩ := isName_iff.mp h
  have hread : tokens (s.toList ++ []) = .ok [.name s] := by
    rw [tokens_word breaks_nil hword, tokens_nil]
    rfl
  have hbare : Postfixed [.name s] (.path (.name s) []) := .identifier (.name hreserved) .nil
  rw [List.append_nil] at hread
  exact parse_of_tokens hread (Prefixed.layered (.postfixed hbare) _)

/-- The texts that are read as a variable of their own spelling are the names. -/
theorem isName_iff_parse {cs : List Char} :
    Text.isName cs ↔ parse cs = .ok (.path (.name (String.ofList cs)) []) := by
  refine ⟨fun h => ?_, fun h => ?_⟩
  · rw [← String.toList_ofList (l := cs)] at h
    have hread := parse_of_isName h
    rwa [String.toList_ofList] at hread
  · have hname := isName_of_occurrence h (x := ⟨String.ofList cs, []⟩) (List.mem_singleton_self _)
    rwa [String.toList_ofList] at hname

end TemplateEngine.Expr

import TemplateEngine.Proofs.Syntax.Reading
import TemplateEngine.Proofs.Syntax.Spelled

/-! Whole numbers in operands. The text of a number is read as the number, alone and as an index.
The digits are taken before the sign, so the least number, which has no counterpart, cannot be
written. -/
namespace TemplateEngine.Expr

open Grammar

theorem Grammar.Layered.looser {layers layers' : List Layer} {ts : List Token} {ast : Ast}
    (h : Layered layers ts ast) (hlayers : layers <:+ layers') : Layered layers' ts ast := by
  obtain ⟨more, rfl⟩ := hlayers
  induction more with
  | nil => exact h
  | cons l more ih =>
    rw [← List.append_nil ts]
    exact .operators ih .done

theorem Grammar.Prefixed.layered {ts : List Token} {ast : Ast} (h : Prefixed ts ast)
    (layers : List Layer) : Layered layers ts ast :=
  .looser (.prefixed h) List.nil_suffix

theorem prefixed_intTokens (n : Int64) : Prefixed (intTokens n) (.const (.int n)) := by
  unfold intTokens
  split
  · have h : Prefixed [.punct .minus, .int (-n)] (.const (.int (- -n))) :=
      .negInt (.postfixed (.constant (.int (-n))))
    rwa [Int64.neg_neg] at h
  · exact .postfixed (.constant (.int n))

theorem accessor_intTokens (n : Int64) :
    Accessor (.punct .openBracket :: (intTokens n ++ [.punct .closeBracket])) (.index n) := by
  unfold intTokens
  split
  · have h : Accessor [.punct .openBracket, .punct .minus, .int (-n), .punct .closeBracket]
        (.index (- -n)) := .indexFromEnd (-n)
    rwa [Int64.neg_neg] at h
  · exact .index n

theorem isWord_of_isName {cs : List Char} (h : Text.isName cs) : IsWord (String.ofList cs) := by
  cases cs with
  | nil => cases h
  | cons c cs =>
    simp only [Text.isName, Bool.and_eq_true, List.all_eq_true] at h
    exact ⟨c, cs, String.toList_ofList, h.1.1, h.1.2⟩

theorem not_reserved_of_isName {cs : List Char} (h : Text.isName cs) :
    String.ofList cs ∉ Text.reserved := by
  cases cs with
  | nil => cases h
  | cons c cs =>
    simp only [Text.isName, Bool.and_eq_true] at h
    simpa using h.2

theorem parse_of_tokens {cs : List Char} {ts : List Token} {ast : Ast} (h : tokens cs = .ok ts)
    (hast : Expression ts ast) : parse cs = .ok ast := by
  rw [parse, h]
  exact ofTokens_eq_ok_iff.mpr hast

theorem parse_of_tokens_error {cs : List Char} {e : SyntaxError} (h : tokens cs = .error e) :
    parse cs = .error e := by
  rw [parse, h]

section Index

variable {x : String} (hx : Text.isName x.toList)
include hx

theorem tokens_indexed (n : Int64) :
    tokens (x ++ "[" ++ intText n ++ "]").toList =
      (tokens ((intText n).toList ++ [']'])).map (.name x :: .punct .openBracket :: ·) := by
  have hword : IsWord x := by
    rw [← String.ofList_toList (s := x)]
    exact isWord_of_isName hx
  have hbreaks : Breaks (Punct.openBracket.symbol.toList ++ ((intText n).toList ++ [']'])) :=
    breaks_cons (by decide) (by decide) (by decide) _
  have htext : (x ++ "[" ++ intText n ++ "]").toList =
      x.toList ++ (Punct.openBracket.symbol.toList ++ ((intText n).toList ++ [']'])) := by
    simp [Punct.symbol]
  rw [htext, tokens_word hbreaks hword, tokens_symbol _ (intText_ne_equal n _)]
  cases tokens ((intText n).toList ++ [']']) <;> rfl

theorem postfixed_indexed (n : Int64) :
    Postfixed (.name x :: .punct .openBracket :: (intTokens n ++ [.punct .closeBracket]))
      (.path (.name x) [.index n]) := by
  have hname : Identifier (.name x) (.name x) := by
    have := not_reserved_of_isName hx
    rw [String.ofList_toList] at this
    exact .name this
  rw [← List.append_nil (_ :: (intTokens n ++ _))]
  exact .identifier hname (.cons (accessor_intTokens n) .nil)

end Index

/-- A number that the engine has written is read as this number, alone and as an index, unless it is
the least one. -/
theorem parse_render_int (n : Int64) :
    let text := (Value.int n).render
    let read (ast : Ast) : Except SyntaxError Ast :=
      if n = Int64.minValue then .error (.invalidNumber "9223372036854775808") else .ok ast
    parse text.toList = read (.const (.int n)) ∧
      ∀ x : String, Text.isName x.toList →
        parse (x ++ "[" ++ text ++ "]").toList = read (.path (.name x) [.index n]) := by
  intro text read
  have htext : text = intText n := by rw [← Value.render]
  have hclose : Breaks [']'] := breaks_cons (by decide) (by decide) (by decide) _
  rw [htext, ← List.append_nil (intText n).toList]
  by_cases hn : n = Int64.minValue
  · subst hn
    refine ⟨parse_of_tokens_error (tokens_intText_least breaks_nil), fun x hx => ?_⟩
    apply parse_of_tokens_error
    rw [tokens_indexed hx, tokens_intText_least hclose]
    rfl
  · simp only [read, hn, if_false]
    constructor
    · have hread : tokens ((intText n).toList ++ []) = .ok (intTokens n) := by
        rw [tokens_intText breaks_nil hn, tokens_nil]
        simp [Except.map]
      exact parse_of_tokens hread ((prefixed_intTokens n).layered _)
    · intro x hx
      have hread : tokens (x ++ "[" ++ intText n ++ "]").toList = .ok
          (.name x :: .punct .openBracket :: (intTokens n ++ [.punct .closeBracket])) := by
        have hend : tokens [']'] = .ok [.punct .closeBracket] := by
          have h : tokens (Punct.closeBracket.symbol.toList ++ []) =
              (tokens []).map (.punct .closeBracket :: ·) := tokens_symbol .closeBracket nofun
          rwa [tokens_nil] at h
        rw [tokens_indexed hx, tokens_intText hclose hn, hend]
        rfl
      exact parse_of_tokens hread (Prefixed.layered (.postfixed (postfixed_indexed hx n)) _)

theorem parse_render_int_negative :
    parse "x[-3]".toList = .ok (.path (.name "x") [.index (-3)]) := by
  have hread := (parse_render_int (-3)).2 "x" (by decide)
  have htext : "x" ++ "[" ++ (Value.int (-3)).render ++ "]" = "x[-3]" := by decide +kernel
  rw [htext] at hread
  exact hread

/-- What is written for the least number cannot be read. -/
theorem parse_render_least :
    (Value.int Int64.minValue).render = "-9223372036854775808" ∧
      parse (Value.int Int64.minValue).render.toList =
        .error (.invalidNumber "9223372036854775808") := by
  have htext : (Value.int Int64.minValue).render = "-9223372036854775808" := by decide +kernel
  refine ⟨htext, ?_⟩
  rw [Value.render, ← List.append_nil (intText _).toList]
  exact parse_of_tokens_error (tokens_intText_least breaks_nil)

end TemplateEngine.Expr

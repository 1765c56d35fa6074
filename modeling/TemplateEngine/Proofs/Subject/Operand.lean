import TemplateEngine.Proofs.Meaning.Unknown
import TemplateEngine.Proofs.Subject.Legible
import TemplateEngine.Proofs.Subject.Regrouped
import TemplateEngine.Proofs.Subject.Row

/-! The subject of a failure. It is the text of the operand that failed, rebuilt from the compiled
form, where no parentheses are left. The text can always be read; it is read as the operand if and
only if the operand needs no parentheses, and then it comes to the same in every context. -/
namespace TemplateEngine

open TemplateEngine.Expr (Ast Token)

theorem Names.knows_of_slot {names : Names} {name : String}
    (h : (names.slots.lookup? name).isSome) : names.knows name := by
  rw [knows, h, Bool.true_or]

theorem Expr.expression_of_parse {text : List Char} {ts : List Token} {e : Ast}
    (hts : tokens text = .ok ts) (he : parse text = .ok e) : Grammar.Expression ts e := by
  rw [parse, hts] at he
  exact ofTokens_eq_ok_iff.mp he

theorem Expr.expression_unique {ts : List Token} {e e' : Ast} (h : Grammar.Expression ts e)
    (h' : Grammar.Expression ts e') : e = e' := by
  have heq := (ofTokens_eq_ok_iff.mpr h).symm.trans (ofTokens_eq_ok_iff.mpr h')
  exact Except.ok.inj heq

/-- What the rebuilt text of an operand is worth. Its names are those of slots, and there are no
quotes and no floating-point numbers in it. -/
theorem operandText_reads {names : Names} {arena : Arena} {text : List Char} {ts : List Token}
    (hts : Expr.tokens text = .ok ts) (hbare : ∀ t ∈ ts, t.IsBare) {e : Ast}
    (he : Expr.parse text = .ok e) (hslots : ∀ x ∈ e.names, (names.slots.lookup? x).isSome)
    {o : Operand} {lowered : Lowering}
    (hlower : Lowering.ofText names arena text = .ok (o, lowered)) :
    ∃ (subject : String) (read : Ast),
      (∀ s : Scope, s.Sees names lowered.arena → s.operandText o = subject) ∧
      Expr.parse subject.toList = .ok read ∧
      (read = e ↔ e.pairs = 0) ∧ (read = e.regrouped ↔ e.regrouped.pairs = 0) ∧
      (read = e ∨ read = e.regrouped → ∀ arena' : Arena, ∃ o' lowered',
        Lowering.ofText names arena' subject.toList = .ok (o', lowered') ∧ lowered'.unknown = [] ∧
        ∀ s s' : Scope, s.Sees names lowered.arena → s'.Sees names lowered'.arena → s.Alike s' →
          s'.resolve o' = s.resolve o) := by
  have hlegible : e.Legible := (Expr.expression_of_parse hts he).legible fun t ht =>
    ⟨hbare t ht, Expr.isCut_of_tokens hts t ht⟩
  have hmeans : Lowering.OperandMeans names lowered.arena e o := by
    obtain ⟨o', lowered', hlower', hmeans, -⟩ := Lowering.exists_ofText names arena he
    rw [hlower] at hlower'
    cases hlower'
    exact hmeans
  have htokens : Expr.tokens (e.text names).toList = .ok e.spelled := by
    have h := (Ast.spells hlegible hslots).read [] Expr.breaks_nil
    rw [List.append_nil, Expr.tokens_nil] at h
    rw [h]
    simp [Except.map]
  obtain ⟨read, hread⟩ := (Ast.row_spelled hlegible).expression
  have hparse : Expr.parse (e.text names).toList = .ok read := Expr.parse_of_tokens htokens hread
  have hsame := Ast.same_regrouped e
  have hiff {e' : Ast} (h : e.Same e') : read = e' ↔ e'.pairs = 0 := by
    rw [← Expr.expression_spelled_iff (h.legible hlegible), h.spelled]
    exact ⟨fun heq => heq ▸ hread, fun h' => Expr.expression_unique hread h'⟩
  refine ⟨e.text names, read, hmeans.text, hparse, hiff (.refl e), hiff hsame, ?_⟩
  intro hor arena'
  have hsame : e.Same read := by
    obtain rfl | rfl := hor
    · exact .refl read
    · exact hsame
  obtain ⟨o', lowered', hlower', hmeans', hunknown⟩ := Lowering.exists_ofText names arena' hparse
  refine ⟨o', lowered', hlower', ?_, fun s s' hs hs' halike => ?_⟩
  · rw [hunknown, Ast.unknown_eq_nil_iff, hsame.names]
    exact fun x hx => Names.knows_of_slot (hslots x hx)
  · rw [hmeans'.value s' hs', hmeans.value s hs, hsame.value, Ast.value_of_alike halike]

/-- Parentheses that are not needed are left out, also those around the right side of a conjunction.
-/
theorem operandText_reads_conjunction :
    ∃ e, Expr.parse "(a * b) + c && (a && !c)".toList = .ok e ∧
      Expr.parse "a * b + c && a && !c".toList = .ok e.regrouped := by
  let names : Names := ⟨{ names := ["a", "b", "c"] }, []⟩
  let text := "(a * b) + c && (a && !c)".toList
  let scope (arena : Arena) : Scope :=
    { host := .bare, slots := names.slots, arena, values := [], target := .null }
  have hfacts : (match Expr.tokens text, Expr.parse text, Lowering.ofText names {} text with
      | .ok ts, .ok e, .ok (o, lowered) =>
        ts.all (fun t => decide t.IsBare) &&
          e.names.all (fun x => (names.slots.lookup? x).isSome) &&
          e.regrouped.pairs == 0 && (scope lowered.arena).operandText o == "a * b + c && a && !c"
      | _, _, _ => false) = true := by decide +kernel
  cases hts : Expr.tokens text with
  | error => simp [hts] at hfacts
  | ok ts =>
    cases he : Expr.parse text with
    | error => simp [hts, he] at hfacts
    | ok e =>
      cases hlower : Lowering.ofText names {} text with
      | error => simp [hts, he, hlower] at hfacts
      | ok r =>
        obtain ⟨o, lowered⟩ := r
        simp only [hts, he, hlower, Bool.and_eq_true, List.all_eq_true, decide_eq_true_eq,
          beq_iff_eq] at hfacts
        obtain ⟨⟨⟨hbare, hslots⟩, hpairs⟩, htext⟩ := hfacts
        obtain ⟨subject, read, hsubject, hread, -, hregrouped, -⟩ :=
          operandText_reads hts hbare he hslots hlower
        have hsees : (scope lowered.arena).Sees names lowered.arena :=
          ⟨List.suffix_rfl, List.prefix_rfl⟩
        rw [← hsubject _ hsees, htext, hregrouped.mpr hpairs] at hread
        exact ⟨e, rfl, hread⟩

/-- Without the parentheses the product comes before the sum. The operand fails; what it is called
in the failure comes to a string. -/
theorem operandText_misread :
    let names : Names := ⟨{ names := ["a", "b", "c"] }, []⟩
    let scope (arena : Arena) : Scope :=
      { host := .bare, slots := names.slots, arena, values := [.str "x", .int 1, .int 2],
        target := .null }
    let result (text : String) : Option (String × Except DataError Value) :=
      (Lowering.ofText names {} text.toList).toOption.map fun (o, lowered) =>
        ((scope lowered.arena).operandText o, (scope lowered.arena).resolve o)
    (result "(a + b) * c" matches
        some ("a + b * c", .error ⟨"a + b * c", .binaryMismatch .mul "str" "int"⟩)) ∧
      (result "a + b * c" matches some ("a + b * c", .ok (.str "x2"))) := by
  decide +kernel

end TemplateEngine

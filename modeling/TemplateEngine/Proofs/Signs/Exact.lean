import TemplateEngine.Proofs.Meaning.Lowered
import TemplateEngine.Proofs.Signs.Folded

/-! Numbers that are taken together with the signs in front of them mean what the signs, kept as
operators, would make of them. -/
namespace TemplateEngine.Expr

/-- A value, or why there is none. The words for what was being resolved are left out, which are
those of the tree. -/
def outcome {α : Type} (r : Except DataError α) : Except Failure α :=
  r.mapError (·.failure)

section Outcome

variable {α β : Type} {r r' : Except DataError α}

theorem outcome_eq_ok_iff {a : α} : outcome r = .ok a ↔ r = .ok a := by
  cases r with
  | error e => exact ⟨nofun, nofun⟩
  | ok b => exact ⟨fun h => by cases h; rfl, fun h => by cases h; rfl⟩

theorem outcome_bind {f g : α → Except DataError β} (h : outcome r = outcome r')
    (hf : ∀ a, outcome (f a) = outcome (g a)) : outcome (r >>= f) = outcome (r' >>= g) := by
  cases r with
  | ok a =>
    obtain rfl := outcome_eq_ok_iff.mp h.symm
    exact hf a
  | error e =>
    cases r' with
    | ok a => cases h
    | error e' =>
      have hsame : e.failure = e'.failure := Except.error.inj h
      exact congrArg Except.error hsame

theorem outcome_blame (text text' : String) (x : Except Failure Value) :
    outcome (Scope.blame text x) = outcome (Scope.blame text' x) := by
  cases x <;> rfl

end Outcome

/-- The run finds no overflow where there is an opposite. -/
theorem HasOpposite.unary_neg {n : Int64} (h : HasOpposite n) :
    Operators.unary .neg (.int n) = .ok (.int (-n)) := by
  rw [Operators.unary, Operators.exact, Decimal.toInt64?_eq_some_iff.mpr h.toInt_neg]

section Folded

variable (names : Names) (s : Scope)

/-- The run of the minus sign on what is left of an operand comes to what was made of it. -/
theorem outcome_negated {e : Ast} (h : e.InRange) (text : String) :
    outcome (e.negated.value names s) =
      outcome (do Scope.blame text (Operators.unary .neg (← e.value names s))) := by
  unfold Ast.negated
  split
  · next n =>
    change _ = outcome (Scope.blame text (Operators.unary .neg (.int n)))
    rw [HasOpposite.unary_neg h]
    rfl
  · rfl
  · exact outcome_bind rfl fun v => outcome_blame _ _ _

mutual

theorem Ast.IsWritten.outcome_folded {e : Ast} (h : e.IsWritten) :
    outcome (e.folded.value names s) = outcome (e.value names s) := by
  match e, h with
  | .const v, _ => rfl
  | .path head steps, h =>
    rw [Ast.folded, Ast.value, Ast.value]
    cases names.value? s head with
    | none => rfl
    | some root =>
      simp only [stepsValue_folded h.2 root]
      cases stepsValue names s root steps <;> rfl
  | .unary .not operand, h =>
    exact outcome_bind (Ast.IsWritten.outcome_folded (e := operand) h) fun v => outcome_blame _ _ _
  | .unary .neg operand, h =>
    rw [Ast.folded, outcome_negated names s (Ast.IsWritten.inRange (e := operand) h) ""]
    exact outcome_bind (Ast.IsWritten.outcome_folded (e := operand) h) fun v => outcome_blame _ _ _
  | .binary op left right, h =>
    have hleft := Ast.IsWritten.outcome_folded h.1
    have hright := Ast.IsWritten.outcome_folded h.2
    rw [Ast.folded]
    cases op with
    | and =>
      refine outcome_bind hleft fun v => ?_
      split
      · exact outcome_bind hright fun _ => rfl
      · rfl
    | or =>
      refine outcome_bind hleft fun v => ?_
      split
      · rfl
      · exact outcome_bind hright fun _ => rfl
    | _ =>
      refine outcome_bind hleft fun v => outcome_bind hright fun w => ?_
      exact outcome_blame _ _ _

theorem Step.IsWritten.value_folded {step : Step} (h : step.IsWritten) (v : Value) :
    step.folded.value names s v = step.value names s v := by
  match step, h with
  | .field _, _ | .key _, _ | .index _, _ => rfl
  | .call name args, h =>
    have hcall (args : List Ast) : Step.value names s v (.call name args) =
        outcome (argumentValues names s args) >>= Methods.call s.host v name := by
      rw [Step.value]
      cases argumentValues names s args <;> rfl
    rw [Step.folded, hcall, hcall, outcome_argumentsFolded h]

theorem stepsValue_folded {steps : List Step} (h : StepsWritten steps) (v : Value) :
    stepsValue names s v (stepsFolded steps) = stepsValue names s v steps := by
  match steps, h with
  | [], _ => rfl
  | step :: rest, h =>
    rw [stepsFolded, stepsValue, stepsValue, Step.IsWritten.value_folded h.1]
    exact bind_congr fun w => stepsValue_folded h.2 w

theorem outcome_argumentsFolded {args : List Ast} (h : ArgumentsWritten args) :
    outcome (argumentValues names s (argumentsFolded args)) =
      outcome (argumentValues names s args) := by
  match args, h with
  | [], _ => rfl
  | arg :: rest, h =>
    refine outcome_bind (Ast.IsWritten.outcome_folded h.1) fun v => ?_
    exact outcome_bind (outcome_argumentsFolded h.2) fun _ => rfl

end

end Folded

/-! The other way round, a minus sign can be put in front of the opposite of each negative constant.
That even leaves all words as they are. -/

def signedConst : Value → Ast
  | .int n => if n.toInt < 0 then .unary .neg (.const (.int (-n))) else .const (.int n)
  | v => .const v

mutual

/-- A tree without negative constants, which has signs as operators in their place. -/
def Ast.signed : Ast → Ast
  | .const v => signedConst v
  | .path head steps => .path head (stepsSigned steps)
  | .unary op operand => .unary op operand.signed
  | .binary op left right => .binary op left.signed right.signed

def Step.signed : Step → Step
  | .field name => .field name
  | .index i => .index i
  | .key k => .key k
  | .call name args => .call name (argumentsSigned args)

def stepsSigned : List Step → List Step
  | [] => []
  | step :: rest => step.signed :: stepsSigned rest

def argumentsSigned : List Ast → List Ast
  | [] => []
  | arg :: rest => arg.signed :: argumentsSigned rest

end

theorem HasOpposite.intText_eq {n : Int64} (h : HasOpposite n) (hneg : n.toInt < 0) :
    intText n = "-" ++ intText (-n) := by
  rw [← String.toList_inj, String.toList_append, toList_intText, toList_intText, h.toInt_neg,
    if_pos hneg, if_neg (by omega), Int.natAbs_neg]
  rfl

section Signed

variable (names : Names)

theorem text_signedConst {v : Value} (h : IntegerHas HasOpposite v) :
    (signedConst v).text names = literalText v := by
  unfold signedConst
  split
  · next n =>
    split
    · next hneg => exact (HasOpposite.intText_eq h hneg).symm
    · rfl
  · rfl

mutual

theorem Ast.InRange.text_signed {e : Ast} (h : e.InRange) : e.signed.text names = e.text names := by
  match e, h with
  | .const v, h => exact text_signedConst names h
  | .path head steps, h => rw [Ast.signed, Ast.text, Ast.text, stepsText_signed h.2]
  | .unary op operand, h =>
    rw [Ast.signed, Ast.text, Ast.text, Ast.InRange.text_signed (e := operand) h]
  | .binary op left right, h =>
    rw [Ast.signed, Ast.text, Ast.text, Ast.InRange.text_signed h.1, Ast.InRange.text_signed h.2]

theorem Step.text_signed {step : Step} (h : step.All (IntegerHas HasOpposite) HasOpposite) :
    step.signed.text names = step.text names := by
  match step, h with
  | .field _, _ | .key _, _ | .index _, _ => rfl
  | .call name args, h => rw [Step.signed, Step.text, Step.text, argumentTexts_signed h]

theorem stepsText_signed {steps : List Step}
    (h : stepsAll (IntegerHas HasOpposite) HasOpposite steps) :
    stepsText names (stepsSigned steps) = stepsText names steps := by
  match steps, h with
  | [], _ => rfl
  | step :: rest, h =>
    rw [stepsSigned, stepsText, stepsText, Step.text_signed h.1, stepsText_signed h.2]

theorem argumentTexts_signed {args : List Ast}
    (h : argumentsAll (IntegerHas HasOpposite) HasOpposite args) :
    argumentTexts names (argumentsSigned args) = argumentTexts names args := by
  match args, h with
  | [], _ => rfl
  | arg :: rest, h =>
    rw [argumentsSigned, argumentTexts, argumentTexts, Ast.InRange.text_signed h.1,
      argumentTexts_signed h.2]

end

variable (s : Scope)

theorem value_signedConst {v : Value} (h : IntegerHas HasOpposite v) :
    (signedConst v).value names s = .ok v := by
  unfold signedConst
  split
  · next n =>
    have hn : HasOpposite n := h
    split
    · change Scope.blame _ (Operators.unary .neg (.int (-n))) = _
      rw [hn.neg.unary_neg, Int64.neg_neg]
      rfl
    · rfl
  · rfl

mutual

theorem Ast.InRange.value_signed {e : Ast} (h : e.InRange) :
    e.signed.value names s = e.value names s := by
  have htext := h.text_signed names
  match e, h with
  | .const v, h => exact value_signedConst names s h
  | .path head steps, h =>
    rw [Ast.signed] at htext ⊢
    rw [Ast.value, Ast.value, htext]
    cases names.value? s head with
    | none => rfl
    | some root => simp only [stepsValue_signed h.2 root]
  | .unary op operand, h =>
    rw [Ast.signed] at htext ⊢
    rw [Ast.value, Ast.value, htext, Ast.InRange.value_signed (e := operand) h]
  | .binary op left right, h =>
    have hleft := Ast.InRange.value_signed h.1
    have hright := Ast.InRange.value_signed h.2
    rw [Ast.signed] at htext ⊢
    cases op <;> simp only [Ast.value, hleft, hright, htext]

theorem Step.value_signed {step : Step} (h : step.All (IntegerHas HasOpposite) HasOpposite)
    (v : Value) : step.signed.value names s v = step.value names s v := by
  match step, h with
  | .field _, _ | .key _, _ | .index _, _ => rfl
  | .call name args, h => rw [Step.signed, Step.value, Step.value, argumentValues_signed h]

theorem stepsValue_signed {steps : List Step}
    (h : stepsAll (IntegerHas HasOpposite) HasOpposite steps) (v : Value) :
    stepsValue names s v (stepsSigned steps) = stepsValue names s v steps := by
  match steps, h with
  | [], _ => rfl
  | step :: rest, h =>
    rw [stepsSigned, stepsValue, stepsValue, Step.value_signed h.1]
    exact bind_congr fun w => stepsValue_signed h.2 w

theorem argumentValues_signed {args : List Ast}
    (h : argumentsAll (IntegerHas HasOpposite) HasOpposite args) :
    argumentValues names s (argumentsSigned args) = argumentValues names s args := by
  match args, h with
  | [], _ => rfl
  | arg :: rest, h =>
    rw [argumentsSigned, argumentValues, argumentValues, Ast.InRange.value_signed h.1,
      argumentValues_signed h.2]

end

end Signed

/-- Two trees come to the same, as far as `view` tells, wherever they are lowered and resolved:
whatever the arenas hold besides them, with the same values of slots, the same target and one host.
-/
def Ast.SameBy {α : Type} (view : Except DataError Value → α) (e e' : Ast) : Prop :=
  ∀ (names : Names) (operand operand' : List Char) (st st' : Lowering) (s s' : Scope),
    let r := (Lowering.operandOf names operand e).run st
    let r' := (Lowering.operandOf names operand' e').run st'
    s.Sees names r.2.arena → s'.Sees names r'.2.arena → s.Alike s' →
      view (s.resolve r.1) = view (s'.resolve r'.1)

theorem sameBy_of_value {α : Type} {view : Except DataError Value → α} {e e' : Ast}
    (h : ∀ names s, view (e.value names s) = view (e'.value names s)) : e.SameBy view e' := by
  intro names operand operand' st st' s s' r r' hs hs' halike
  obtain ⟨-, -, hmeans⟩ := Lowering.gives_operandOf names operand e st List.suffix_rfl
  obtain ⟨-, -, hmeans'⟩ := Lowering.gives_operandOf names operand' e' st' List.suffix_rfl
  calc view (s.resolve r.1) = view (e.value names s) := by rw [hmeans.value s hs]
    _ = view (e'.value names s) := h names s
    _ = view (e'.value names s') := by rw [Ast.value_of_alike halike e']
    _ = view (s'.resolve r'.1) := by rw [hmeans'.value s' hs']

/-- What is read of a text without negating anything, and what becomes of it. -/
structure ReadAs (cs : List Char) (raw ast : Ast) : Prop where
  read : Signs.written.parse cs = .ok raw
  written : raw.IsWritten
  folded : raw.folded = ast
  same : raw.SameBy outcome ast

/-- Signs in front of numbers are taken into them without loss. A parser that reports every number
without an opposite that it comes across, whatever the report, answers the same about all texts. The
numbers of a tree have opposites. The tree is what becomes of the one where every sign is an
operator in front of a literal as it is written, which comes to the same value or fails for the same
reason; it comes to the same even in words as the one with a sign in front of the opposite of each
of its negative constants. -/
theorem parse_negations (cs : List Char) :
    (∀ report, (Signs.checked report).parse cs = parse cs) ∧
      ∀ ast, parse cs = .ok ast →
        ast.InRange ∧ (∃ raw, ReadAs cs raw ast) ∧ ast.signed.SameBy id ast := by
  have hparse : parse cs = (Signs.written.parse cs).map Ast.folded := by
    rw [← Signs.parse_folded, (Signs.parse_eq Signs.folds_folded cs).1]
  constructor
  · intro report
    rw [hparse, (Signs.parse_eq (Signs.folds_checked report) cs).1]
  · intro ast hast
    rw [hparse] at hast
    obtain ⟨raw, hread, rfl⟩ := map_eq_ok hast
    have hraw := (Signs.parse_eq Signs.folds_folded cs).2 raw hread
    have hrange := hraw.inRange
    refine ⟨hrange, ⟨raw, hread, hraw, rfl, ?_⟩, ?_⟩
    · exact sameBy_of_value fun names s => (hraw.outcome_folded names s).symm
    · exact sameBy_of_value fun names s => hrange.value_signed names s

/-- Three signs in front of the largest number, two in front of a small one, and one in brackets. -/
theorem parse_negations_largest :
    let cs := "---9223372036854775807 - xs[-1] * --2".toList
    let names : Names := ⟨{ names := ["xs"] }, []⟩
    ∃ raw ast, parse cs = .ok ast ∧ ast.text names = "-9223372036854775807 - xs[-1] * 2" ∧
      raw.text names = "---9223372036854775807 - xs[-1] * --2" ∧ ast.InRange ∧
      ReadAs cs raw ast := by
  intro cs names
  have htext : (parse cs).toOption.map (Ast.text names) =
      some "-9223372036854775807 - xs[-1] * 2" := by decide +kernel
  have hraw : (Signs.written.parse cs).toOption.map (Ast.text names) = some (String.ofList cs) := by
    decide +kernel
  cases hast : parse cs with
  | error e =>
    rw [hast] at htext
    cases htext
  | ok ast =>
    obtain ⟨hrange, ⟨raw, hreads⟩, -⟩ := (parse_negations cs).2 ast hast
    rw [hast] at htext
    rw [hreads.read] at hraw
    exact ⟨raw, ast, rfl, Option.some.inj htext, Option.some.inj hraw, hrange, hreads⟩

end TemplateEngine.Expr

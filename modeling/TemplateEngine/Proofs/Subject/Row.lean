import TemplateEngine.Proofs.Subject.Pairs

/-! Operators in a row. Whatever operators stand between some operands, the grammar makes one tree
of them all, so the spelling of every tree can be read, if only as another tree. -/
namespace TemplateEngine.Expr

open Grammar

/-- Operands without a binary operator of their own, and operators between them. -/
inductive Row : List Token → Prop where
  | one {ts : List Token} {ast : Ast} : Prefixed ts ast → Row ts
  | more {ts us : List Token} {p : Punct} {l : Layer} {op : BinaryOp} {ast : Ast} : Row ts →
      p.operator? = some (l, op) → Prefixed us ast → Row (ts ++ .punct p :: us)

section Append

variable {l : Layer} {layers tighter : List Layer} {p : Punct} {op : BinaryOp} {ts us : List Token}
  {left right ast : Ast}

theorem Grammar.Continued.snoc_cases : {left : Ast} → {us : List Token} → {ast : Ast} →
    Continued l tighter left us ast → us = [] ∧ ast = left ∨
      ∃ (p : Punct) (op : BinaryOp) (before ts : List Token) (ast' right : Ast),
        us = before ++ .punct p :: ts ∧ p.operator? = some (l, op) ∧
          Continued l tighter left before ast' ∧ Layered tighter ts right
  | _, _, _, .done => .inl ⟨rfl, rfl⟩
  | left, _, _, @Continued.operator _ _ p op ts _ _ right _ hop hright hmore => by
    refine .inr ?_
    obtain ⟨rfl, rfl⟩ | ⟨q, op', before, ts', ast', right', rfl, hop', hbefore, hright'⟩ :=
      hmore.snoc_cases
    · exact ⟨p, op, [], ts, left, right, by simp, hop, .done, hright⟩
    · exact ⟨q, op', .punct p :: (ts ++ before), ts', ast', right', by simp, hop',
        .operator hop hright hbefore, hright'⟩

/-- An operator of some layer and its right operand extend what is before them. A tighter operator
than the last one takes the last right operand for its left one. -/
theorem exists_layered_append (hop : p.operator? = some (l, op)) (hl : l ∈ layers)
    (h : Layered layers ts left) (hright : Prefixed us right) :
    ∃ ast, Layered layers (ts ++ .punct p :: us) ast := by
  induction layers generalizing ts left with
  | nil => cases hl
  | cons l' tighter ih =>
    cases h with
    | @operators _ _ ts us' first _ hfirst hmore =>
      rw [List.append_assoc]
      by_cases heq : l = l'
      · subst heq
        exact ⟨_, .operators hfirst (hmore.snoc hop (hright.layered tighter))⟩
      · have hl := (List.mem_cons.mp hl).resolve_left heq
        obtain ⟨rfl, rfl⟩ | ⟨q, op', before, ts', ast', last, rfl, hop', hbefore, hlast⟩ :=
          hmore.snoc_cases
        · obtain ⟨ast, hast⟩ := ih hl hfirst
          refine ⟨ast, ?_⟩
          rw [List.nil_append, ← List.append_nil (ts ++ _)]
          exact .operators hast .done
        · obtain ⟨ast, hast⟩ := ih hl hlast
          refine ⟨.binary op' ast' ast, ?_⟩
          rw [List.append_assoc, List.cons_append]
          exact .operators hfirst (hbefore.snoc hop' hast)

end Append

namespace Row

variable {ts us : List Token}

theorem expression (h : Row ts) : ∃ ast, Expression ts ast := by
  induction h with
  | one h => exact ⟨_, h.layered Layer.all⟩
  | more _ hop hright ih =>
    obtain ⟨left, hleft⟩ := ih
    exact exists_layered_append hop ((Layer.suffix_all _).subset List.mem_cons_self) hleft hright

theorem append {p : Punct} {l : Layer} {op : BinaryOp} (h : Row ts)
    (hop : p.operator? = some (l, op))
    (h' : Row us) : Row (ts ++ .punct p :: us) := by
  induction h' with
  | one h' => exact .more h hop h'
  | more _ hop' hright ih =>
    rw [← List.cons_append, ← List.append_assoc]
    exact .more ih hop' hright

/-- A sign goes to the first operand. -/
theorem sign (h : Row ts) (op : UnaryOp) : Row (.punct op.punct :: ts) := by
  induction h with
  | one h =>
    cases op with
    | not => exact .one (.not h)
    | neg => exact .one h.negated
  | more _ hop hright ih => exact .more ih hop hright

end Row

mutual

theorem Ast.row_spelled {e : Ast} (he : e.Legible) : Row e.spelled := by
  match e with
  | .const v => exact .one (prefixed_literalTokens he)
  | .path head steps =>
    obtain ⟨hhead, hliteral, hsteps⟩ := he
    obtain ⟨more, hmore, hempty⟩ := exists_accessors_spelled hsteps
    cases head with
    | name s => exact .one (.postfixed (.identifier (.name hhead.2) hmore))
    | this => exact .one (.postfixed (.identifier .this hmore))
    | literal v =>
      obtain ⟨t, ht, hv⟩ := literal_of_isLiteral hhead
      rw [Ast.spelled, Head.spelled, ht]
      cases more with
      | nil => exact absurd rfl (hliteral (hempty rfl) v)
      | cons step rest => exact .one (.postfixed (.literal hv hmore))
  | .unary op operand => exact (Ast.row_spelled he.2).sign op
  | .binary op left right =>
    exact (Ast.row_spelled he.1).append op.operator?_punct (Ast.row_spelled he.2)

theorem exists_accessor_spelled {step : Step} (h : step.Legible) :
    ∃ s, Accessor step.spelled s := by
  match step with
  | .field name => exact ⟨_, .field name⟩
  | .index i => exact ⟨_, accessor_intTokens i⟩
  | .key _ => exact h.elim
  | .call name [] => exact ⟨_, .call name⟩
  | .call name (arg :: rest) =>
    obtain ⟨args, hargs⟩ := exists_arguments_spelled h.2 (List.cons_ne_nil arg rest)
    exact ⟨_, .callWith hargs⟩

theorem exists_accessors_spelled {steps : List Step} (h : stepsLegible steps) :
    ∃ more, Accessors (stepsSpelled steps) more ∧ (more = [] → steps = []) := by
  match steps with
  | [] => exact ⟨[], .nil, fun _ => rfl⟩
  | step :: rest =>
    obtain ⟨s, hs⟩ := exists_accessor_spelled h.1
    obtain ⟨more, hmore, -⟩ := exists_accessors_spelled h.2
    exact ⟨s :: more, .cons hs hmore, nofun⟩

theorem exists_arguments_spelled {args : List Ast} (h : argumentsLegible args) (hne : args ≠ []) :
    ∃ args', Arguments (argumentsSpelled args) args' := by
  match args with
  | [] => exact absurd rfl hne
  | [arg] =>
    obtain ⟨arg', harg⟩ := (Ast.row_spelled h.1).expression
    rw [argumentsSpelled, moreSpelled, List.append_nil]
    exact ⟨[arg'], .last harg⟩
  | arg :: next :: rest =>
    obtain ⟨arg', harg⟩ := (Ast.row_spelled h.1).expression
    obtain ⟨args', hargs⟩ := exists_arguments_spelled h.2 (List.cons_ne_nil next rest)
    exact ⟨arg' :: args', .cons harg hargs⟩

end

end TemplateEngine.Expr

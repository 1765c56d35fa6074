import TemplateEngine.Proofs.Syntax.Grammar

/-! Brackets among the tokens of an operand. An operand of the grammar closes the brackets that it
opens, and a comma of it stands between parentheses. -/
namespace TemplateEngine.Expr

/-- How many brackets are open after a token, before which there were `depth`. Brackets of the two
shapes are counted together. -/
def Token.depthAfter (depth : Nat) : Token → Nat
  | .punct .openParen | .punct .openBracket => depth + 1
  | .punct .closeParen | .punct .closeBracket => depth - 1
  | _ => depth

/-- Neither a bracket nor a comma. -/
def Token.isPlain : Token → Bool
  | .punct .openParen | .punct .openBracket | .punct .closeParen | .punct .closeBracket => false
  | .punct .comma => false
  | _ => true

theorem Token.depthAfter_of_isPlain {t : Token} (h : t.isPlain) (depth : Nat) :
    t.depthAfter depth = depth := by
  unfold isPlain at h
  split at h
  case h_6 => simp_all [depthAfter]
  all_goals cases h

/-- The tokens that stand in no brackets, if `depth` brackets are open before the first one. -/
def outermost (depth : Nat) : List Token → List Token
  | [] => []
  | t :: ts =>
    let rest := outermost (t.depthAfter depth) ts
    if depth = 0 then t :: rest else rest

theorem mem_outermost_cons {t u : Token} {ts : List Token} {depth : Nat} :
    t ∈ outermost depth (u :: ts) ↔
      (depth = 0 ∧ t = u) ∨ t ∈ outermost (u.depthAfter depth) ts := by
  rw [outermost]
  split
  · next hdepth => simp [hdepth]
  · next hdepth => simp [hdepth]

theorem mem_outermost_append {t : Token} {ts us : List Token} {depth : Nat} :
    t ∈ outermost depth (ts ++ us) ↔
      t ∈ outermost depth ts ∨ t ∈ outermost (ts.foldl Token.depthAfter depth) us := by
  induction ts generalizing depth with
  | nil => simp [outermost]
  | cons u ts ih => rw [List.cons_append, mem_outermost_cons, mem_outermost_cons, ih, or_assoc,
      List.foldl_cons]

/-- Between `least` brackets or more these tokens leave as many open as there are, and none of their
commas stands outside all brackets. -/
structure Balanced (least : Nat) (ts : List Token) : Prop where
  depth {d : Nat} : least ≤ d → ts.foldl Token.depthAfter d = d
  comma {d : Nat} : least ≤ d → .punct .comma ∉ outermost d ts

namespace Balanced

variable {least : Nat} {t : Token} {ts us : List Token}

theorem nil : Balanced least [] :=
  ⟨fun _ => rfl, fun _ => List.not_mem_nil⟩

theorem append (hts : Balanced least ts) (hus : Balanced least us) :
    Balanced least (ts ++ us) where
  depth hd := by rw [List.foldl_append, hts.depth hd, hus.depth hd]
  comma hd := by
    rw [mem_outermost_append, hts.depth hd]
    exact not_or.mpr ⟨hts.comma hd, hus.comma hd⟩

theorem cons (ht : t.isPlain) (hts : Balanced least ts) : Balanced least (t :: ts) where
  depth hd := by rw [List.foldl_cons, Token.depthAfter_of_isPlain ht, hts.depth hd]
  comma hd := by
    rw [mem_outermost_cons, Token.depthAfter_of_isPlain ht]
    refine not_or.mpr ⟨?_, hts.comma hd⟩
    rintro ⟨-, rfl⟩
    cases ht

theorem comma_cons (hts : Balanced 1 ts) : Balanced 1 (.punct .comma :: ts) where
  depth hd := hts.depth hd
  comma hd := by
    rw [mem_outermost_cons]
    refine not_or.mpr ⟨?_, hts.comma hd⟩
    rintro ⟨rfl, -⟩
    exact absurd hd (by decide)

theorem mono (hts : Balanced 0 ts) : Balanced least ts :=
  ⟨fun _ => hts.depth (Nat.zero_le _), fun _ => hts.comma (Nat.zero_le _)⟩

theorem enclosed {p q : Punct} (hp : ∀ d, (Token.punct p).depthAfter d = d + 1)
    (hq : ∀ d, (Token.punct q).depthAfter (d + 1) = d) (hcomma : p ≠ .comma)
    (hts : Balanced 1 ts) : Balanced 0 (.punct p :: (ts ++ [.punct q])) where
  depth {d} _ := by
    have hd : 1 ≤ d + 1 := Nat.le_add_left 1 d
    rw [List.foldl_cons, hp, List.foldl_append, hts.depth hd, List.foldl_cons, hq, List.foldl_nil]
  comma {d} _ := by
    have hd : 1 ≤ d + 1 := Nat.le_add_left 1 d
    rw [mem_outermost_cons, hp, mem_outermost_append, hts.depth hd]
    simp [outermost, hts.comma hd, hcomma.symm]

theorem parens (hts : Balanced 1 ts) :
    Balanced 0 (.punct .openParen :: (ts ++ [.punct .closeParen])) :=
  enclosed (fun _ => rfl) (fun _ => rfl) (by decide) hts

theorem brackets (hts : Balanced 1 ts) :
    Balanced 0 (.punct .openBracket :: (ts ++ [.punct .closeBracket])) :=
  enclosed (fun _ => rfl) (fun _ => rfl) (by decide) hts

end Balanced

theorem Grammar.Literal.isPlain {t : Token} {v : Value} (h : Literal t v) : t.isPlain := by
  cases h <;> rfl

theorem Grammar.Identifier.isPlain {t : Token} {head : Head} (h : Identifier t head) :
    t.isPlain := by
  cases h <;> rfl

theorem Punct.isPlain_of_operator {p : Punct} {l : Layer} {op : BinaryOp}
    (h : p.operator? = some (l, op)) : (Token.punct p).isPlain := by
  cases p <;> first | rfl | cases h

mutual

theorem Grammar.Layered.balanced {layers : List Layer} {ts : List Token} {ast : Ast} :
    Layered layers ts ast → Balanced 0 ts
  | .prefixed h => h.balanced
  | .operators h hmore => h.balanced.append hmore.balanced

theorem Grammar.Continued.balanced {l : Layer} {layers : List Layer} {left ast : Ast}
    {ts : List Token} : Continued l layers left ts ast → Balanced 0 ts
  | .done => .nil
  | .operator hop h hmore => (h.balanced.append hmore.balanced).cons (Punct.isPlain_of_operator hop)

theorem Grammar.Prefixed.balanced {ts : List Token} {ast : Ast} : Prefixed ts ast → Balanced 0 ts
  | .not h | .negInt h | .negFloat h | .neg h _ => h.balanced.cons rfl
  | .postfixed h => h.balanced

theorem Grammar.Postfixed.balanced {ts : List Token} {ast : Ast} :
    Postfixed ts ast → Balanced 0 ts
  | .parens h => h.balanced.mono.parens
  | .constant hliteral => Balanced.nil.cons hliteral.isPlain
  | .literal hliteral h => h.balanced.cons hliteral.isPlain
  | .identifier hname h => h.balanced.cons hname.isPlain

theorem Grammar.Accessors.balanced {ts : List Token} {more : List Step} :
    Accessors ts more → Balanced 0 ts
  | .nil => .nil
  | .cons h hmore => h.balanced.append hmore.balanced

theorem Grammar.Accessor.balanced {ts : List Token} {s : Step} : Accessor ts s → Balanced 0 ts
  | .field s => (Balanced.nil.cons (t := .name s) rfl).cons rfl
  | .call s => (Balanced.nil.parens.cons (t := .name s) rfl).cons rfl
  | .callWith h => (h.balanced.parens.cons rfl).cons rfl
  | .index n => (Balanced.nil.cons (t := .int n) rfl).brackets
  | .indexFromEnd n =>
    ((Balanced.nil.cons (t := .int n) rfl).cons (t := .punct .minus) rfl).brackets
  | .key k => (Balanced.nil.cons (t := .str k) rfl).brackets

theorem Grammar.Arguments.balanced {ts : List Token} {args : List Ast} :
    Arguments ts args → Balanced 1 ts
  | .last h => h.balanced.mono
  | .cons h hmore => h.balanced.mono.append hmore.balanced.comma_cons

end

end TemplateEngine.Expr

import TemplateEngine.Proofs.Subject.Spelling
import TemplateEngine.Proofs.Syntax.Integers

/-! The parentheses that a tree needs. Its spelling has none around operators; it is one of the tree
if and only if the tree needs none, since any tokens of the tree have at least as many opening
parentheses as its calls and the pairs that it needs. -/
namespace TemplateEngine.Expr

open Grammar

def BinaryOp.layer : BinaryOp → Layer
  | .or => .or
  | .and => .and
  | .eq | .ne => .equality
  | .lt | .le | .gt | .ge => .comparison
  | .add | .sub => .sum
  | .mul | .div | .mod => .product

theorem BinaryOp.operator?_punct (op : BinaryOp) : op.punct.operator? = some (op.layer, op) := by
  cases op <;> rfl

/-- The layers that bind tighter. -/
def Layer.tighter : Layer → List Layer
  | .or => [.and, .equality, .comparison, .sum, .product]
  | .and => [.equality, .comparison, .sum, .product]
  | .equality => [.comparison, .sum, .product]
  | .comparison => [.sum, .product]
  | .sum => [.product]
  | .product => []

theorem Layer.suffix_all (l : Layer) : l :: l.tighter <:+ Layer.all := by
  cases l <;> decide

/-- How many layers an operand may have at least, for an operator of a layer to stand in it. -/
def Layer.height (l : Layer) : Nat :=
  l.tighter.length + 1

/-- How many layers a tree takes without parentheses around it. -/
def Ast.height : Ast → Nat
  | .binary op _ _ => op.layer.height
  | .const _ | .path _ _ | .unary _ _ => 0

theorem Ast.height_le (e : Ast) : e.height ≤ Layer.all.length := by
  cases e with
  | binary op => exact op.layer.suffix_all.length_le
  | _ => exact Nat.zero_le _

mutual

/-- How many parts of a tree have to stand in parentheses. The operand of a sign may have no
operator, a left side none that is looser, and a right side only tighter ones. -/
def Ast.pairs : Ast → Nat
  | .const _ => 0
  | .path _ steps => stepsPairs steps
  | .unary _ operand => operand.pairs + if 0 < operand.height then 1 else 0
  | .binary op left right =>
    (left.pairs + if op.layer.height < left.height then 1 else 0) +
      (right.pairs + if op.layer.height ≤ right.height then 1 else 0)

def Step.pairs : Step → Nat
  | .call _ args => argumentsPairs args
  | .field _ | .index _ | .key _ => 0

def stepsPairs : List Step → Nat
  | [] => 0
  | step :: rest => step.pairs + stepsPairs rest

def argumentsPairs : List Ast → Nat
  | [] => 0
  | arg :: rest => arg.pairs + argumentsPairs rest

end

theorem Layer.tighter_eq {l : Layer} {tighter : List Layer} (h : l :: tighter <:+ Layer.all) :
    l.tighter = tighter := by
  have hl : l ∉ l.tighter := by cases l <;> decide
  have hnodup : (l :: tighter).Nodup := h.sublist.nodup (by decide)
  have hl' : l ∉ tighter := (List.nodup_cons.mp hnodup).1
  obtain hsuffix | hsuffix := List.suffix_or_suffix_of_suffix l.suffix_all h
  · obtain heq | hin := List.suffix_cons_iff.mp hsuffix
    · exact (List.cons.inj heq).2
    · exact absurd (hin.subset List.mem_cons_self) hl'
  · obtain heq | hin := List.suffix_cons_iff.mp hsuffix
    · exact (List.cons.inj heq).2.symm
    · exact absurd (hin.subset List.mem_cons_self) hl

section Grammar

variable {l : Layer} {layers tighter : List Layer} {ts us : List Token} {left right ast : Ast}

/-- One more operator at the end. -/
theorem Grammar.Continued.snoc {p : Punct} {op : BinaryOp} (hop : p.operator? = some (l, op))
    (hright : Layered tighter us right) : {left : Ast} → {ts : List Token} → {ast : Ast} →
      Continued l tighter left ts ast →
        Continued l tighter left (ts ++ .punct p :: us) (.binary op ast right)
  | left, _, _, .done => by
    have h : Continued l tighter left (.punct p :: (us ++ [])) (.binary op left right) :=
      .operator hop hright .done
    rwa [List.append_nil] at h
  | _, _, _, .operator hop' hright' hmore => by
    rw [List.cons_append, List.append_assoc]
    exact .operator hop' hright' (hmore.snoc hop hright)

theorem Grammar.Layered.binary {op : BinaryOp} (hlayers : op.layer :: tighter <:+ layers)
    (hleft : Layered (op.layer :: tighter) ts left) (hright : Layered tighter us right) :
    Layered layers (ts ++ .punct op.punct :: us) (.binary op left right) := by
  refine .looser ?_ hlayers
  cases hleft with
  | operators hfirst hmore =>
    rw [List.append_assoc]
    exact .operators hfirst (hmore.snoc op.operator?_punct hright)

end Grammar

theorem literal_of_isLiteral {v : Value} (h : (Head.literal v).Legible) :
    ∃ t, literalTokens v = [t] ∧ Literal t v := by
  cases v with
  | int n =>
    have hn : 0 ≤ n.toInt := h
    exact ⟨.int n, if_neg (by omega), .int n⟩
  | bool b => cases b <;> exact ⟨_, rfl, by constructor⟩
  | null => exact ⟨_, rfl, .null⟩
  | _ => exact h.elim

theorem prefixed_literalTokens {v : Value} (h : IsLiteral v) :
    Prefixed (literalTokens v) (.const v) := by
  cases v with
  | int n => exact prefixed_intTokens n
  | bool b => cases b <;> exact .postfixed (.constant (by constructor))
  | null => exact .postfixed (.constant .null)
  | _ => cases h

/-! A tree that needs no parentheses is what its spelling stands for. -/

mutual

theorem Ast.layered_spelled {e : Ast} (he : e.Legible) (hpairs : e.pairs = 0) {layers : List Layer}
    (hlayers : layers <:+ Layer.all) (hheight : e.height ≤ layers.length) :
    Layered layers e.spelled e := by
  match e with
  | .const v => exact (prefixed_literalTokens he).layered layers
  | .path head steps =>
    obtain ⟨hhead, hliteral, hsteps⟩ := he
    rw [Ast.pairs] at hpairs
    have hmore := accessors_spelled hsteps hpairs
    refine Prefixed.layered (.postfixed ?_) layers
    cases head with
    | name s => exact .identifier (.name hhead.2) hmore
    | this => exact .identifier .this hmore
    | literal v =>
      obtain ⟨t, ht, hv⟩ := literal_of_isLiteral hhead
      rw [Ast.spelled, Head.spelled, ht]
      cases steps with
      | nil => exact absurd rfl (hliteral rfl v)
      | cons step rest => exact .literal hv hmore
  | .unary op operand =>
    rw [Ast.pairs] at hpairs
    have hzero : operand.height ≤ 0 := by
      by_contra hpos
      rw [if_pos (by omega)] at hpairs
      omega
    have hoperand : Layered [] operand.spelled operand :=
      Ast.layered_spelled he.2 (by omega) List.nil_suffix hzero
    cases hoperand with
    | prefixed h =>
      refine Prefixed.layered ?_ layers
      cases op with
      | not => exact .not h
      | neg => exact .neg h (he.1 rfl)
  | .binary op left right =>
    rw [Ast.pairs] at hpairs
    have hleft : left.height ≤ op.layer.height := by
      by_contra hlt
      rw [if_pos (by omega)] at hpairs
      omega
    have hright : right.height < op.layer.height := by
      by_contra hle
      rw [if_pos (c := _ ≤ _) (by omega)] at hpairs
      omega
    have hsuffix := op.layer.suffix_all
    refine Layered.binary (List.suffix_of_suffix_length_le hsuffix hlayers hheight) ?_ ?_
    · exact Ast.layered_spelled he.1 (by omega) hsuffix hleft
    · exact Ast.layered_spelled he.2 (by omega) ((List.suffix_cons _ _).trans hsuffix)
        (Nat.le_of_lt_succ hright)

theorem accessor_spelled {step : Step} (h : step.Legible) (hpairs : step.pairs = 0) :
    Accessor step.spelled step := by
  match step with
  | .field name => exact .field name
  | .index i => exact accessor_intTokens i
  | .key _ => exact h.elim
  | .call name [] => exact .call name
  | .call name (arg :: rest) =>
    exact .callWith (arguments_spelled h.2 hpairs (List.cons_ne_nil _ _))

theorem accessors_spelled {steps : List Step} (h : stepsLegible steps)
    (hpairs : stepsPairs steps = 0) :
    Accessors (stepsSpelled steps) steps := by
  match steps with
  | [] => exact .nil
  | step :: rest =>
    rw [stepsPairs] at hpairs
    exact .cons (accessor_spelled h.1 (by omega)) (accessors_spelled h.2 (by omega))

theorem arguments_spelled {args : List Ast} (h : argumentsLegible args)
    (hpairs : argumentsPairs args = 0) (hne : args ≠ []) :
    Arguments (argumentsSpelled args) args := by
  match args with
  | [] => exact absurd rfl hne
  | [arg] =>
    rw [argumentsPairs] at hpairs
    rw [argumentsSpelled, moreSpelled, List.append_nil]
    exact .last (Ast.layered_spelled h.1 (by omega) List.suffix_rfl arg.height_le)
  | arg :: next :: rest =>
    rw [argumentsPairs] at hpairs
    exact .cons (Ast.layered_spelled h.1 (by omega) List.suffix_rfl arg.height_le)
      (arguments_spelled h.2 (by omega) (List.cons_ne_nil _ _))

end

/-! Whatever tokens stand for a tree, their opening parentheses are enough for its calls and for the
pairs that it needs. -/

def Token.isOpening : Token → Bool
  | .punct p => p = .openParen
  | .name _ | .int _ | .float _ | .str _ => false

def openings (ts : List Token) : Nat :=
  ts.countP Token.isOpening

@[simp] theorem openings_nil : openings [] = 0 := rfl

@[simp] theorem openings_append (ts us : List Token) :
    openings (ts ++ us) = openings ts + openings us :=
  List.countP_append

@[simp] theorem openings_openParen (ts : List Token) :
    openings (.punct .openParen :: ts) = openings ts + 1 :=
  List.countP_cons_of_pos rfl

theorem openings_cons {t : Token} (ht : t.isOpening = false) (ts : List Token) :
    openings (t :: ts) = openings ts :=
  List.countP_cons_of_neg (by simp [ht])

@[simp] theorem openings_name (s : String) (ts : List Token) :
    openings (.name s :: ts) = openings ts :=
  openings_cons rfl ts

@[simp] theorem openings_punct {p : Punct} (hp : p ≠ .openParen) (ts : List Token) :
    openings (.punct p :: ts) = openings ts :=
  openings_cons (t := .punct p) (decide_eq_false hp) ts

@[simp] theorem openings_intTokens (n : Int64) : openings (intTokens n) = 0 := by
  unfold intTokens
  split <;> rfl

@[simp] theorem openings_literalTokens (v : Value) : openings (literalTokens v) = 0 := by
  cases v with
  | int n => exact openings_intTokens n
  | _ => rfl

@[simp] theorem openings_head (head : Head) : openings head.spelled = 0 := by
  cases head with
  | literal v => exact openings_literalTokens v
  | _ => rfl

theorem openings_moreSpelled (args : List Ast) :
    openings (moreSpelled args) = openings (argumentsSpelled args) := by
  cases args with
  | nil => rfl
  | cons arg rest => rw [moreSpelled, argumentsSpelled, openings_punct (by decide)]

/-- The parentheses of a tree with its calls, where an operand of some layers is to stand. -/
def Ast.cost (layers : Nat) (e : Ast) : Nat :=
  openings e.spelled + (e.pairs + if layers < e.height then 1 else 0)

theorem Ast.cost_anti {m n : Nat} (h : m ≤ n) (e : Ast) : e.cost n ≤ e.cost m := by
  unfold cost
  split <;> split <;> omega

theorem Ast.cost_unary (op : UnaryOp) (e : Ast) : (Ast.unary op e).cost 0 = e.cost 0 := by
  cases op <;> simp [cost, spelled, pairs, height, UnaryOp.punct]

theorem Ast.cost_binary (op : BinaryOp) (left right : Ast) :
    (Ast.binary op left right).cost op.layer.height =
      left.cost op.layer.height + right.cost op.layer.tighter.length := by
  have hop : op.punct ≠ .openParen := by cases op <;> decide
  have hright : (if op.layer.height ≤ right.height then 1 else 0) =
      if op.layer.tighter.length < right.height then 1 else 0 := rfl
  have hwhole : ¬op.layer.height < (Ast.binary op left right).height := Nat.lt_irrefl _
  rw [cost, cost, cost, spelled, pairs, openings_append, openings_punct hop, hright, if_neg hwhole]
  omega

theorem Ast.cost_path (head : Head) (steps : List Step) (n : Nat) :
    (Ast.path head steps).cost n = openings (stepsSpelled steps) + stepsPairs steps := by
  simp [cost, spelled, pairs, height]

theorem Ast.cost_const (v : Value) (n : Nat) : (Ast.const v).cost n = 0 := by
  simp [cost, spelled, pairs, height]

theorem openings_operator {p : Punct} {l : Layer} {op : BinaryOp} (h : p.operator? = some (l, op))
    (ts : List Token) : openings (.punct p :: ts) = openings ts :=
  openings_punct (by rintro rfl; cases h) ts

theorem layer_of_operator? {p : Punct} {l : Layer} {op : BinaryOp}
    (h : p.operator? = some (l, op)) :
    op.layer = l := by
  cases p <;> cases h <;> rfl

mutual

theorem Grammar.Layered.cost_le {layers : List Layer} {ts : List Token} {ast : Ast} :
    Layered layers ts ast → layers <:+ Layer.all → ast.cost layers.length ≤ openings ts
  | .prefixed h, _ => h.cost_le
  | @Layered.operators _ tighter _ _ first _ h hmore, hlayers => by
    have hfirst := h.cost_le ((List.suffix_cons _ _).trans hlayers)
    have hloose : first.cost (tighter.length + 1) ≤ first.cost tighter.length :=
      first.cost_anti (Nat.le_succ _)
    have hall := hmore.cost_le hlayers
    rw [openings_append, List.length_cons]
    omega

theorem Grammar.Continued.cost_le {l : Layer} {tighter : List Layer} {us : List Token}
    {left ast : Ast} : Continued l tighter left us ast → l :: tighter <:+ Layer.all →
      ast.cost (tighter.length + 1) ≤ left.cost (tighter.length + 1) + openings us
  | .done, _ => Nat.le_refl _
  | @Continued.operator _ _ _ op _ _ left right _ hop h hmore, hlayers => by
    have hright := h.cost_le ((List.suffix_cons _ _).trans hlayers)
    have hall := hmore.cost_le hlayers
    have hbinary := Ast.cost_binary op left right
    rw [Layer.height, layer_of_operator? hop, Layer.tighter_eq hlayers] at hbinary
    rw [openings_operator hop, openings_append]
    omega

theorem Grammar.Prefixed.cost_le {ts : List Token} {ast : Ast} :
    Prefixed ts ast → ast.cost 0 ≤ openings ts
  | .not h => by
    rw [Ast.cost_unary, openings_punct (by decide)]
    exact h.cost_le
  | .negInt _ | .negFloat _ => by
    rw [Ast.cost_const]
    exact Nat.zero_le _
  | .neg h _ => by
    rw [Ast.cost_unary, openings_punct (by decide)]
    exact h.cost_le
  | .postfixed h => h.cost_le

theorem Grammar.Postfixed.cost_le {ts : List Token} {ast : Ast} :
    Postfixed ts ast → ast.cost 0 ≤ openings ts
  | @Postfixed.parens _ ast h => by
    have hinner := h.cost_le List.suffix_rfl
    have hpair : ast.cost 0 ≤ ast.cost Layer.all.length + 1 := by
      unfold Ast.cost
      split <;> omega
    rw [openings_openParen, openings_append]
    omega
  | .constant _ => by
    rw [Ast.cost_const]
    exact Nat.zero_le _
  | .literal (t := t) hliteral hmore => by
    have ht : t.isOpening = false := by cases hliteral <;> rfl
    rw [Ast.cost_path, openings_cons ht]
    exact hmore.cost_le
  | .identifier (t := t) hname hmore => by
    have ht : t.isOpening = false := by cases hname <;> rfl
    rw [Ast.cost_path, openings_cons ht]
    exact hmore.cost_le

theorem Grammar.Accessors.cost_le {ts : List Token} {more : List Step} :
    Accessors ts more → openings (stepsSpelled more) + stepsPairs more ≤ openings ts
  | .nil => Nat.le_refl _
  | .cons h hmore => by
    have hfirst := h.cost_le
    have hrest := hmore.cost_le
    rw [stepsSpelled, stepsPairs, openings_append, openings_append]
    omega

theorem Grammar.Accessor.cost_le {ts : List Token} {s : Step} :
    Accessor ts s → openings s.spelled + s.pairs ≤ openings ts
  | .field _ | .call _ | .key _ => Nat.le_refl _
  | .callWith h => by
    have hargs := h.cost_le
    simp only [Step.spelled, Step.pairs, ne_eq, reduceCtorEq, not_false_eq_true, openings_punct,
      openings_name, openings_openParen, openings_append, openings_nil]
    omega
  | .index n => by simp [Step.spelled, Step.pairs]
  | .indexFromEnd n => by simp [Step.spelled, Step.pairs]

theorem Grammar.Arguments.cost_le {ts : List Token} {args : List Ast} :
    Arguments ts args → openings (argumentsSpelled args) + argumentsPairs args ≤ openings ts
  | @Arguments.last _ ast h => by
    have hast := h.cost_le List.suffix_rfl
    simp only [Ast.cost] at hast
    simp only [argumentsSpelled, moreSpelled, argumentsPairs, openings_append, openings_nil]
    omega
  | .cons h hmore => by
    have hast := h.cost_le List.suffix_rfl
    have hargs := hmore.cost_le
    simp only [Ast.cost] at hast
    rw [argumentsSpelled, argumentsPairs, openings_append, openings_moreSpelled, openings_append,
      openings_punct (by decide)]
    omega

end

/-- The spelling of a tree stands for it if and only if it needs no parentheses. -/
theorem expression_spelled_iff {e : Ast} (he : e.Legible) :
    Expression e.spelled e ↔ e.pairs = 0 := by
  constructor
  · intro h
    have hcost := h.cost_le List.suffix_rfl
    rw [Ast.cost] at hcost
    omega
  · exact fun hpairs => e.layered_spelled he hpairs List.suffix_rfl e.height_le

end TemplateEngine.Expr

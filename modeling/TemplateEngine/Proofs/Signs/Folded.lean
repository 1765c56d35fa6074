import TemplateEngine.Proofs.Signs.Parser
import TemplateEngine.Proofs.Subject.Legible

/-! Taking numbers together with the signs in front of them, said of a tree in which every sign is
an operator. No literal is negative, so every number on the way has one of the opposite sign, and a
parser that does it at once comes to the same tree. -/
namespace TemplateEngine.Expr

/-- The numbers with an opposite that a word holds. -/
def HasOpposite (n : Int64) : Prop :=
  -Int64.maxValue.toInt ≤ n.toInt ∧ n.toInt ≤ Int64.maxValue.toInt

/-- A value is such a number if it is a whole one. -/
def IntegerHas (p : Int64 → Prop) : Value → Prop
  | .int n => p n
  | _ => True

section All

variable (constant : Value → Prop) (index : Int64 → Prop)

mutual

/-- All constants of a tree and all numbers between its brackets are such. -/
def Ast.All : Ast → Prop
  | .const v => constant v
  | .path head steps => (∀ v, head = .literal v → constant v) ∧ stepsAll steps
  | .unary _ operand => operand.All
  | .binary _ left right => left.All ∧ right.All

def Step.All : Step → Prop
  | .index i => index i
  | .call _ args => argumentsAll args
  | .field _ | .key _ => True

def stepsAll : List Step → Prop
  | [] => True
  | step :: rest => step.All ∧ stepsAll rest

def argumentsAll : List Ast → Prop
  | [] => True
  | arg :: rest => arg.All ∧ argumentsAll rest

end

end All

/-- A tree as it is written: no constant is negative. -/
abbrev Ast.IsWritten : Ast → Prop :=
  Ast.All (IntegerHas fun n => 0 ≤ n.toInt) HasOpposite

abbrev Step.IsWritten : Step → Prop :=
  Step.All (IntegerHas fun n => 0 ≤ n.toInt) HasOpposite

abbrev StepsWritten : List Step → Prop :=
  stepsAll (IntegerHas fun n => 0 ≤ n.toInt) HasOpposite

abbrev ArgumentsWritten : List Ast → Prop :=
  argumentsAll (IntegerHas fun n => 0 ≤ n.toInt) HasOpposite

/-- Every number in the tree has an opposite. -/
abbrev Ast.InRange : Ast → Prop :=
  Ast.All (IntegerHas HasOpposite) HasOpposite

mutual

/-- A tree with its numbers taken together with the signs in front of them. -/
def Ast.folded : Ast → Ast
  | .const v => .const v
  | .path head steps => .path head (stepsFolded steps)
  | .unary .not operand => .unary .not operand.folded
  | .unary .neg operand => operand.folded.negated
  | .binary op left right => .binary op left.folded right.folded

def Step.folded : Step → Step
  | .field name => .field name
  | .index i => .index i
  | .key k => .key k
  | .call name args => .call name (argumentsFolded args)

def stepsFolded : List Step → List Step
  | [] => []
  | step :: rest => step.folded :: stepsFolded rest

def argumentsFolded : List Ast → List Ast
  | [] => []
  | arg :: rest => arg.folded :: argumentsFolded rest

end

/-! Ranges. -/

theorem hasOpposite_iff {n : Int64} : HasOpposite n ↔ n ≠ Int64.minValue := by
  have hle := n.minValue_le_toInt
  have hlt := n.toInt_lt
  rw [HasOpposite, ne_eq, ← Int64.toInt_inj]
  rw [Int64.toInt_minValue] at hle ⊢
  rw [Int64.toInt_maxValue]
  omega

theorem hasOpposite_of_nonneg {n : Int64} (h : 0 ≤ n.toInt) : HasOpposite n :=
  hasOpposite_iff.mpr (ne_minValue_of_nonneg h)

theorem HasOpposite.neg {n : Int64} (h : HasOpposite n) : HasOpposite (-n) :=
  hasOpposite_iff.mpr (neg_ne_minValue (hasOpposite_iff.mp h))

/-- Where there is an opposite, the negation of words is exact. -/
theorem HasOpposite.toInt_neg {n : Int64} (h : HasOpposite n) : (-n).toInt = -n.toInt :=
  toInt_neg_of_ne (hasOpposite_iff.mp h)

theorem HasOpposite.opposite? {n : Int64} (h : HasOpposite n) : Signs.opposite? n = some (-n) :=
  Decimal.toInt64?_eq_some_iff.mpr h.toInt_neg

theorem Ast.InRange.negated {ast : Ast} (h : ast.InRange) : ast.negated.InRange := by
  unfold Ast.negated
  split
  · exact HasOpposite.neg h
  · trivial
  · exact h

theorem inRange_of_written {v : Value} (h : IntegerHas (fun n => 0 ≤ n.toInt) v) :
    IntegerHas HasOpposite v := by
  cases v with
  | int n => exact hasOpposite_of_nonneg h
  | _ => trivial

mutual

theorem Ast.IsWritten.inRange {e : Ast} (h : e.IsWritten) : e.folded.InRange := by
  match e, h with
  | .const v, h => exact inRange_of_written h
  | .path head steps, h =>
    exact ⟨fun v hv => inRange_of_written (h.1 v hv), stepsInRange h.2⟩
  | .unary .not operand, h => exact Ast.IsWritten.inRange (e := operand) h
  | .unary .neg operand, h => exact (Ast.IsWritten.inRange (e := operand) h).negated
  | .binary op left right, h =>
    exact ⟨Ast.IsWritten.inRange h.1, Ast.IsWritten.inRange h.2⟩

theorem Step.IsWritten.inRange {step : Step} (h : step.IsWritten) :
    step.folded.All (IntegerHas HasOpposite) HasOpposite := by
  match step, h with
  | .field _, _ | .key _, _ => trivial
  | .index i, h => exact h
  | .call name args, h => exact argumentsInRange h

theorem stepsInRange {steps : List Step} (h : StepsWritten steps) :
    stepsAll (IntegerHas HasOpposite) HasOpposite (stepsFolded steps) := by
  match steps, h with
  | [], _ => trivial
  | step :: rest, h => exact ⟨Step.IsWritten.inRange h.1, stepsInRange h.2⟩

theorem argumentsInRange {args : List Ast} (h : ArgumentsWritten args) :
    argumentsAll (IntegerHas HasOpposite) HasOpposite (argumentsFolded args) := by
  match args, h with
  | [], _ => trivial
  | arg :: rest, h => exact ⟨Ast.IsWritten.inRange h.1, argumentsInRange h.2⟩

end

namespace Signs

/-- Signs that numbers take up, as long as these have an opposite. -/
structure Folds (signs : Signs) : Prop where
  operand : ∀ ast : Ast, ast.InRange → signs.operand ast = .ok ast.negated
  index : ∀ n, HasOpposite n → signs.index n = .ok (-n)

theorem folds_folded : folded.Folds :=
  ⟨fun _ _ => rfl, fun _ _ => rfl⟩

theorem folds_checked (report : SyntaxError) : (checked report).Folds where
  operand ast h := by
    match ast, h with
    | .const (.int n), h =>
      change ((opposite? n).map _).elim _ _ = _
      rw [HasOpposite.opposite? h]
      rfl
    | .const .null, _ | .const (.bool _), _ | .const (.float _), _ | .const (.str _), _ => rfl
    | .const (.list _), _ | .const (.map _), _ | .const (.object _), _ => rfl
    | .const (.template _), _ | .path _ _, _ | .unary _ _, _ | .binary _ _ _, _ => rfl
  index n h := by
    change (opposite? n).elim _ _ = _
    rw [h.opposite?]
    rfl

/-- The tokens are as they are cut from a text. -/
def Cut (ts : List Token) : Prop :=
  ∀ t ∈ ts, t.IsCut

/-- The same answer about the same tokens, up to signs that are taken up. -/
inductive Agree {α : Type} (Written : α → Prop) (fold : α → α) :
    Except SyntaxError (α × List Token) → Except SyntaxError (α × List Token) → Prop where
  | refused (e : SyntaxError) : Agree Written fold (.error e) (.error e)
  | read {a : α} {rest : List Token} : Written a → Cut rest →
    Agree Written fold (.ok (a, rest)) (.ok (fold a, rest))

/-- Two parsers of operands agree on all tokens. -/
def Follows (p q : Parser Ast) : Prop :=
  ∀ ts, Cut ts → Agree Ast.IsWritten Ast.folded (p ts) (q ts)

theorem Cut.tail {t : Token} {ts : List Token} (h : Cut (t :: ts)) : Cut ts :=
  fun u hu => h u (List.mem_cons_of_mem t hu)

theorem cut_of_operatorAt? {level : List (Punct × BinaryOp)} {ts rest : List Token}
    {op : BinaryOp} (hts : Cut ts) (h : operatorAt? level ts = some (op, rest)) : Cut rest := by
  unfold operatorAt? at h
  split at h
  · obtain ⟨op, -, heq⟩ := Option.map_eq_some_iff.mp h
    cases heq
    exact hts.tail
  · cases h

section Levels

variable {p q : Parser Ast} {level : List (Punct × BinaryOp)}

theorem agree_chain (h : Follows p q) (bound : Nat) {left : Ast} (hleft : left.IsWritten)
    {ts : List Token} (hts : Cut ts) :
    Agree Ast.IsWritten Ast.folded (chain level p bound left ts)
      (chain level q bound left.folded ts) := by
  induction bound generalizing left ts with
  | zero => exact .read hleft hts
  | succ bound ih =>
    unfold chain
    split
    · exact .read hleft hts
    · next op rest hop =>
      have hright := h rest (cut_of_operatorAt? hts hop)
      generalize p rest = x, q rest = y at hright
      cases hright with
      | refused e => exact .refused e
      | @read right _ hright hrest =>
        have hwritten : (Ast.binary op left right).IsWritten := ⟨hleft, hright⟩
        exact ih hwritten hrest

theorem Follows.leftAssoc (h : Follows p q) : Follows (leftAssoc level p) (leftAssoc level q) := by
  intro ts hts
  have hleft := h ts hts
  unfold Expr.leftAssoc
  generalize p ts = x, q ts = y at hleft
  cases hleft with
  | refused e => exact .refused e
  | read hleft hrest => exact agree_chain h _ hleft hrest

theorem Follows.levels (h : Follows p q) (levels : List (List (Punct × BinaryOp))) :
    Follows (levels.foldr Expr.leftAssoc p) (levels.foldr Expr.leftAssoc q) := by
  induction levels with
  | nil => exact h
  | cons level levels ih => exact ih.leftAssoc

end Levels

theorem cut_of_expect {p : Punct} {ts rest : List Token} (hts : Cut ts)
    (h : expect p ts = .ok rest) : Cut rest := by
  rw [expect_eq_ok_iff] at h
  subst h
  exact hts.tail

section Accesses

variable {p q : Parser Ast} (h : Follows p q)
include h

theorem agree_arguments (bound : Nat) {ts : List Token} (hts : Cut ts) :
    Agree ArgumentsWritten argumentsFolded (arguments p bound ts) (arguments q bound ts) := by
  induction bound generalizing ts with
  | zero => exact .refused _
  | succ bound ih =>
    have harg := h ts hts
    unfold arguments
    generalize p ts = x, q ts = y at harg
    cases harg with
    | refused e => exact .refused e
    | @read arg rest harg hrest =>
      split
      · next heq => cases heq
      · next heq =>
        cases heq
        exact .read (a := [arg]) ⟨harg, trivial⟩ hrest.tail
      · next heq =>
        cases heq
        simp only
        split
        · exact .refused _
        · next after hafter =>
          have hmore := ih (cut_of_expect hrest hafter)
          generalize arguments p bound after = x, arguments q bound after = y at hmore
          cases hmore with
          | refused e => exact .refused e
          | read hmore hrest => exact .read (a := _ :: _) ⟨harg, hmore⟩ hrest

theorem agree_member {ts : List Token} (hts : Cut ts) :
    Agree Step.IsWritten Step.folded (member p ts) (member q ts) := by
  unfold member
  split
  · next s rest => exact .read (a := Step.call s []) trivial hts.tail.tail.tail
  · next s rest _ =>
    have hargs := agree_arguments h (rest.length + 1) hts.tail.tail
    generalize arguments p _ rest = x, arguments q _ rest = y at hargs
    cases hargs with
    | refused e => exact .refused e
    | @read args after hargs hafter => exact .read (a := Step.call s args) hargs hafter
  · next s rest _ _ => exact .read (a := Step.field s) trivial hts.tail
  · exact .refused _
  · exact .refused _

end Accesses

/-- The numbers of tokens have opposites. -/
theorem subscript_eq {signs : Signs} (hindex : ∀ n, HasOpposite n → signs.index n = .ok (-n))
    {ts : List Token} (hts : Cut ts) : signs.subscript ts = Expr.subscript ts := by
  unfold subscript
  split
  · next n rest =>
    have hn : 0 ≤ n.toInt := hts (.int n) (by simp)
    rw [hindex n (hasOpposite_of_nonneg hn)]
    rfl
  · rfl

theorem agree_subscript {ts : List Token} (hts : Cut ts) :
    Agree Step.IsWritten Step.folded (Expr.subscript ts) (Expr.subscript ts) := by
  cases hread : Expr.subscript ts with
  | error e => exact .refused e
  | ok found =>
    obtain ⟨step, rest⟩ := found
    obtain ⟨used, rfl, hstep⟩ := subscript_sound hread
    have hrest : Cut rest := fun t ht => hts t (List.mem_append_right used ht)
    cases hstep with
    | index n =>
      exact .read (a := Step.index n) (hasOpposite_of_nonneg (hts (.int n) (by simp))) hrest
    | indexFromEnd n =>
      have hn : HasOpposite n := hasOpposite_of_nonneg (hts (.int n) (by simp))
      exact .read (a := Step.index (-n)) hn.neg hrest
    | key k => exact .read (a := Step.key k) trivial hrest

/-- Two ways to read what follows an opening bracket or a point, if anything does. -/
theorem agree_access? {p q : Parser Ast} (h : Follows p q) {signs : Signs} (hsigns : signs.Folds)
    {ts : List Token} (hts : Cut ts) :
    (written.access? p ts = none ∧ signs.access? q ts = none) ∨
      ∃ x y, written.access? p ts = some x ∧ signs.access? q ts = some y ∧
        Agree Step.IsWritten Step.folded x y := by
  unfold access?
  split
  · exact .inr ⟨_, _, rfl, rfl, agree_member h hts.tail⟩
  · refine .inr ⟨_, _, rfl, rfl, ?_⟩
    rw [subscript_eq (fun _ _ => rfl) hts.tail, subscript_eq hsigns.index hts.tail]
    exact agree_subscript hts.tail
  · exact .inl ⟨rfl, rfl⟩

theorem folded_ofPath (head : Head) (steps : List Step) :
    (Ast.ofPath head steps).folded = .ofPath head (stepsFolded steps) := by
  cases head <;> cases steps <;> rfl

/-- No token is a negative number. -/
theorem written_of_head? {t : Token} {head : Head} (ht : t.IsCut) (h : t.head? = some head) :
    ∀ v, head = .literal v → IntegerHas (fun n => 0 ≤ n.toInt) v := by
  rintro v rfl
  obtain hname | ⟨v, heq, hv⟩ := head?_eq_some_iff.mp h
  · cases hname
  · cases heq
    cases hv with
    | int n => exact ht
    | _ => trivial

theorem written_ofPath {head : Head} {steps : List Step}
    (hhead : ∀ v, head = .literal v → IntegerHas (fun n => 0 ≤ n.toInt) v)
    (hsteps : StepsWritten steps) : (Ast.ofPath head steps).IsWritten := by
  unfold Ast.ofPath
  split
  · exact hhead _ rfl
  · exact ⟨hhead, hsteps⟩

section Folds

variable {signs : Signs} (hsigns : signs.Folds) {p q : Parser Ast} (h : Follows p q)
include hsigns h

theorem agree_steps (bound : Nat) {ts : List Token} (hts : Cut ts) :
    Agree StepsWritten stepsFolded (written.steps p bound ts) (signs.steps q bound ts) := by
  induction bound generalizing ts with
  | zero => exact .read (a := []) trivial hts
  | succ bound ih =>
    unfold steps
    obtain ⟨hp, hq⟩ | ⟨x, y, hp, hq, hstep⟩ := agree_access? h hsigns hts
    · rw [hp, hq]
      exact .read (a := []) trivial hts
    · rw [hp, hq]
      cases hstep with
      | refused e => exact .refused e
      | @read step rest hstep hrest =>
        have hmore := ih hrest
        simp only
        generalize written.steps p bound rest = x, signs.steps q bound rest = y at hmore
        cases hmore with
        | refused e => exact .refused e
        | read hmore hrest => exact .read (a := _ :: _) ⟨hstep, hmore⟩ hrest

theorem Follows.postfixed : Follows (written.postfixed p) (signs.postfixed q) := by
  intro ts hts
  unfold Signs.postfixed
  split
  · exact .refused _
  · next rest =>
    have hinner := h rest hts.tail
    generalize p rest = x, q rest = y at hinner
    cases hinner with
    | refused e => exact .refused e
    | @read ast after hast hafter =>
      simp only
      split
      · exact .refused _
      · next hclose => exact .read hast (cut_of_expect hafter hclose)
  · next t rest _ =>
    split
    · exact .refused _
    · next head hhead =>
      have hmore := agree_steps hsigns h rest.length hts.tail
      generalize written.steps p _ rest = x, signs.steps q _ rest = y at hmore
      cases hmore with
      | refused e => exact .refused e
      | @read more after hmore hafter =>
        simp only [← folded_ofPath]
        exact .read (written_ofPath (written_of_head? (hts t (by simp)) hhead) hmore) hafter

theorem Follows.prefixed : Follows (written.prefixed p) (signs.prefixed q) := by
  intro ts hts
  induction ts with
  | nil => exact .refused _
  | cons t rest ih =>
    have hsame := ih hts.tail
    unfold Signs.prefixed
    split
    · next heq =>
      cases heq
      generalize written.prefixed p rest = x, signs.prefixed q rest = y at hsame
      cases hsame with
      | refused e => exact .refused e
      | @read ast _ hast hrest => exact .read (a := Ast.unary .not ast) hast hrest
    · next heq =>
      cases heq
      generalize written.prefixed p rest = x, signs.prefixed q rest = y at hsame
      cases hsame with
      | refused e => exact .refused e
      | @read ast _ hast hrest =>
        simp only [hsigns.operand _ (Ast.IsWritten.inRange hast)]
        exact .read (a := Ast.unary .neg ast) hast hrest
    · exact Follows.postfixed hsigns h _ hts

omit h in
theorem follows_expression (bound : Nat) :
    Follows (written.expression bound) (signs.expression bound) := by
  induction bound with
  | zero => exact fun _ _ => .refused _
  | succ bound ih => exact (Follows.prefixed hsigns ih).levels _

end Folds

/-- A parser that takes numbers together with their signs comes to what one that does not comes to,
folded. -/
theorem parse_eq {signs : Signs} (hsigns : signs.Folds) (cs : List Char) :
    signs.parse cs = (written.parse cs).map Ast.folded ∧
      ∀ raw, written.parse cs = .ok raw → raw.IsWritten := by
  unfold parse
  cases hts : tokens cs with
  | error e => exact ⟨rfl, nofun⟩
  | ok ts =>
    have hsame := follows_expression hsigns (ts.length + 1) ts (isCut_of_tokens hts)
    simp only
    cases ts with
    | nil => exact ⟨rfl, nofun⟩
    | cons t ts =>
      unfold ofTokens
      generalize written.expression _ (t :: ts) = x, signs.expression _ (t :: ts) = y at hsame
      cases hsame with
      | refused e => exact ⟨rfl, nofun⟩
      | @read _ rest hraw _ =>
        cases rest with
        | nil => exact ⟨rfl, fun raw h => Except.ok.inj h ▸ hraw⟩
        | cons t rest => exact ⟨rfl, nofun⟩

end Signs

end TemplateEngine.Expr

import TemplateEngine.Proofs.Syntax.Reading

/-! The descent that reads an operand, without any bound on how deep it goes or how often its loops
turn. Each call and each turn takes one from the fuel, so that it ends on every list of tokens is a
fact about it. -/
namespace TemplateEngine.Expr

open Grammar

/-- A part of the descent; it gives nothing if its fuel is spent. -/
abbrev Descent (α : Type) := StateT (List Token) (ExceptT SyntaxError Option) α

namespace Descent

def spent {α : Type} : Descent α :=
  fun _ => ExceptT.mk none

/-- A reader that calls no other. -/
def lift {α : Type} (p : Parser α) : Descent α :=
  fun ts => ExceptT.mk (some (p ts))

def expect (p : Punct) : Descent Unit :=
  lift fun ts => (Expr.expect p ts).map ((), ·)

mutual

def layered : (fuel : Nat) → List (List (Punct × BinaryOp)) → Descent Ast
  | 0, _ => spent
  | fuel + 1, [] => prefixed fuel
  | fuel + 1, level :: tighter => do
    let left ← layered fuel tighter
    continued fuel level tighter left

def continued : (fuel : Nat) → List (Punct × BinaryOp) → List (List (Punct × BinaryOp)) → Ast →
    Descent Ast
  | 0, _, _, _ => spent
  | fuel + 1, level, tighter, left => do
    match operatorAt? level (← get) with
    | none => return left
    | some (op, rest) => do
      set rest
      let right ← layered fuel tighter
      continued fuel level tighter (.binary op left right)

def prefixed : (fuel : Nat) → Descent Ast
  | 0 => spent
  | fuel + 1 => do
    match ← get with
    | .punct .bang :: rest => do
      set rest
      return .unary .not (← prefixed fuel)
    | .punct .minus :: rest => do
      set rest
      return (← prefixed fuel).negated
    | _ => postfixed fuel

def postfixed : (fuel : Nat) → Descent Ast
  | 0 => spent
  | fuel + 1 => do
    match ← get with
    | [] => throw .unexpectedEnd
    | .punct .openParen :: rest => do
      set rest
      let ast ← layered fuel levels
      expect .closeParen
      return ast
    | t :: rest =>
      match t.head? with
      | none => throw (.unexpected t)
      | some head => do
        set rest
        return .ofPath head (← steps fuel)

def steps : (fuel : Nat) → Descent (List Step)
  | 0 => spent
  | fuel + 1 => do
    match ← get with
    | .punct .dot :: rest => do
      set rest
      let step ← member fuel
      return step :: (← steps fuel)
    | .punct .openBracket :: rest => do
      set rest
      let step ← lift subscript
      return step :: (← steps fuel)
    | _ => return []

def member : (fuel : Nat) → Descent Step
  | 0 => spent
  | fuel + 1 => do
    match ← get with
    | .name s :: .punct .openParen :: .punct .closeParen :: rest => do
      set rest
      return .call s []
    | .name s :: .punct .openParen :: rest => do
      set rest
      return .call s (← arguments fuel)
    | .name s :: rest => do
      set rest
      return .field s
    | t :: _ => throw (.expectedField (some t))
    | [] => throw (.expectedField none)

def arguments : (fuel : Nat) → Descent (List Ast)
  | 0 => spent
  | fuel + 1 => do
    let arg ← layered fuel levels
    match ← get with
    | .punct .closeParen :: rest => do
      set rest
      return [arg]
    | _ => do
      expect .comma
      return arg :: (← arguments fuel)

end

/-- The descent on a whole list of tokens. -/
def ofTokens (fuel : Nat) (ts : List Token) : Option (Except SyntaxError Ast) :=
  match ts with
  | [] => some (.error .empty)
  | _ =>
    ((layered fuel levels).run ts).run.map fun
      | .error e => .error e
      | .ok (ast, []) => .ok ast
      | .ok (_, t :: _) => .error (.unexpected t)

/-- With enough fuel the descent gives this answer, and more fuel changes nothing. -/
def Finishes {α : Type} (d : Nat → Descent α) (ts : List Token)
    (r : Except SyntaxError (α × List Token)) : Prop :=
  ∃ fuel, ∀ more, fuel ≤ more → ((d more).run ts).run = some r

namespace Finishes

variable {α β : Type} {d d' : Nat → Descent α} {ts rest : List Token}
  {r : Except SyntaxError (α × List Token)}

/-- One call more. -/
theorem succ (h : Finishes (fun fuel => d (fuel + 1)) ts r) : Finishes d ts r := by
  obtain ⟨fuel, hfuel⟩ := h
  refine ⟨fuel + 1, fun more hmore => ?_⟩
  obtain ⟨more, rfl⟩ := Nat.exists_eq_add_of_le' (Nat.le_of_add_left_le hmore)
  exact hfuel more (by omega)

theorem get {k : Nat → List Token → Descent α} (h : Finishes (fun fuel => k fuel ts) ts r) :
    Finishes (fun fuel => MonadState.get >>= k fuel) ts r := h

theorem set {k : Nat → Descent α} (h : Finishes k rest r) :
    Finishes (fun fuel => MonadState.set rest >>= fun _ => k fuel) ts r := h

theorem answer {d : Descent α} (h : (d.run ts).run = some r) : Finishes (fun _ => d) ts r :=
  ⟨0, fun _ _ => h⟩

theorem lift (p : Parser α) (ts : List Token) : Finishes (fun _ => Descent.lift p) ts (p ts) :=
  ⟨0, fun _ _ => rfl⟩

/-- What comes after a part that fails is not carried out. -/
theorem bind {k : Nat → α → Descent β} (hd : Finishes d ts r)
    {r' : Except SyntaxError (β × List Token)} (herror : ∀ e, r = .error e → r' = .error e)
    (hok : ∀ a rest, r = .ok (a, rest) → Finishes (fun fuel => k fuel a) rest r') :
    Finishes (fun fuel => d fuel >>= k fuel) ts r' := by
  obtain ⟨fuel, hfuel⟩ := hd
  match r with
  | .error e =>
    refine ⟨fuel, fun more hmore => ?_⟩
    change (((d more).run ts).run >>= _) = _
    rw [hfuel more hmore, herror e rfl]
    rfl
  | .ok (a, rest) =>
    obtain ⟨fuel', hfuel'⟩ := hok a rest rfl
    refine ⟨max fuel fuel', fun more hmore => ?_⟩
    change (((d more).run ts).run >>= _) = _
    rw [hfuel more (by omega)]
    exact hfuel' more (by omega)

theorem map (hd : Finishes d ts r) {f : α → β} {r' : Except SyntaxError (β × List Token)}
    (herror : ∀ e, r = .error e → r' = .error e)
    (hok : ∀ a rest, r = .ok (a, rest) → r' = .ok (f a, rest)) :
    Finishes (fun fuel => do return f (← d fuel)) ts r' := by
  refine hd.bind herror fun a rest ha => ?_
  rw [hok a rest ha]
  exact .answer rfl

theorem expect {p : Punct} {k : Nat → Descent α}
    (herror : ∀ e, Expr.expect p ts = .error e → r = .error e)
    (hok : ∀ rest, ts = .punct p :: rest → Finishes k rest r) :
    Finishes (fun fuel => Descent.expect p >>= fun _ => k fuel) ts r := by
  refine (lift (fun ts => (Expr.expect p ts).map ((), ·)) ts).bind (fun e he => ?_)
    fun _ rest hrest => ?_
  · cases h : Expr.expect p ts with
    | error e' =>
      rw [h] at he
      cases he
      exact herror e h
    | ok rest =>
      rw [h] at he
      cases he
  · cases h : Expr.expect p ts with
    | error e =>
      rw [h] at hrest
      cases hrest
    | ok rest' =>
      rw [h] at hrest
      cases hrest
      exact hok _ (expect_eq_ok_iff.mp h)

end Finishes

/-! Each part of the descent finishes with what the reader with the bounds answers. -/

section Inner

variable {bound : Nat} {inner : Parser Ast} (hinner : Reads bound Expression (Ends Layer.all) inner)
  (hfinishes : ∀ ts : List Token, ts.length < bound →
    Finishes (fun fuel => layered fuel levels) ts (inner ts))
include hinner hfinishes

theorem finishes_arguments {turns : Nat} {ts : List Token} (hturns : ts.length < turns)
    (hbound : ts.length < bound) : Finishes arguments ts (Expr.arguments inner turns ts) := by
  induction turns generalizing ts with
  | zero => omega
  | succ turns ih =>
    apply Finishes.succ
    simp only [arguments, Expr.arguments]
    refine (hfinishes ts hbound).bind (fun e he => by rw [he]) fun arg rest harg => ?_
    obtain ⟨used, rfl, -⟩ := hinner.sound harg
    rw [harg]
    simp only [List.length_append] at hturns hbound
    apply Finishes.get
    split
    · exact .answer rfl
    · next hclose =>
      split
      · next heq => cases heq
      · next heq =>
        cases heq
        exact absurd rfl (hclose _)
      · next heq =>
        cases heq
        refine .expect (fun e he => by rw [he]) fun rest' hrest => ?_
        subst hrest
        simp only [List.length_cons] at hturns hbound
        have hmore : Finishes arguments rest' (Expr.arguments inner turns rest') :=
          ih (by omega) (by omega)
        simp only [expect_eq_ok_iff.mpr rfl]
        exact hmore.map (fun e he => by rw [he]) fun args rest hargs => by rw [hargs]

theorem finishes_member {ts : List Token} (hbound : ts.length < bound) :
    Finishes member ts (Expr.member inner ts) := by
  apply Finishes.succ
  simp only [member]
  apply Finishes.get
  have hcall {rest : List Token} (h : rest.length + 2 < bound) :
      Finishes arguments rest (Expr.arguments inner (rest.length + 1) rest) :=
    finishes_arguments hinner hfinishes (Nat.lt_succ_self _) (by omega)
  fun_cases Expr.member inner ts with
  | case1 s rest => exact .answer rfl
  | case2 s rest _ e he =>
    have hargs := hcall hbound
    rw [he] at hargs
    simp only
    refine .set (hargs.map ?_ nofun)
    rintro _ ⟨⟩
    rfl
  | case3 s rest _ args after he =>
    have hargs := hcall hbound
    rw [he] at hargs
    simp only
    refine .set (hargs.map nofun ?_)
    rintro _ _ ⟨⟩
    rfl
  | case4 =>
    simp only
    exact .answer rfl
  | case5 =>
    simp only
    exact .answer rfl
  | case6 => exact .answer rfl

theorem finishes_steps {turns : Nat} {ts : List Token} (hturns : ts.length ≤ turns)
    (hbound : ts.length < bound) : Finishes steps ts (Expr.steps inner turns ts) := by
  induction turns generalizing ts with
  | zero =>
    obtain rfl := List.length_eq_zero_iff.mp (Nat.le_zero.mp hturns)
    apply Finishes.succ
    simp only [steps]
    apply Finishes.get
    exact .answer rfl
  | succ turns ih =>
    -- One more access, and then as many as are left.
    have hgo {d : Nat → Descent Step} {rest : List Token}
        {r : Except SyntaxError (Step × List Token)} (hts : access? inner ts = some r)
        (hd : Finishes d rest r) :
        Finishes (fun fuel => do
          let step ← d fuel
          return step :: (← steps fuel)) rest (Expr.steps inner (turns + 1) ts) := by
      rw [steps_succ, hts]
      refine hd.bind (fun e he => by rw [he]) fun step after hstep => ?_
      subst hstep
      obtain ⟨used, rfl, hused⟩ := access?_sound hinner hts
      have hpos := hused.length_pos
      rw [List.length_append] at hturns hbound
      exact (ih (by omega) (by omega)).map (fun e he => by simp only [he])
        fun more rest hmore => by simp only [hmore]
    apply Finishes.succ
    simp only [steps]
    apply Finishes.get
    split
    · next rest =>
      rw [List.length_cons] at hbound
      exact .set (hgo rfl (finishes_member hinner hfinishes (by omega)))
    · next rest => exact .set (hgo rfl (.lift subscript rest))
    · next hdot hbracket =>
      have hts : access? inner ts = none := by
        unfold access?
        split
        · exact absurd rfl (hdot _)
        · exact absurd rfl (hbracket _)
        · rfl
      rw [steps_succ, hts]
      exact .answer rfl

theorem finishes_postfixed {ts : List Token} (hbound : ts.length < bound + 1) :
    Finishes postfixed ts (Expr.postfixed inner ts) := by
  apply Finishes.succ
  simp only [postfixed]
  apply Finishes.get
  match ts with
  | [] => exact .answer rfl
  | t :: rest =>
    rw [List.length_cons] at hbound
    split
    · next heq => cases heq
    · next heq =>
      cases heq
      rw [Expr.postfixed]
      refine .set ((hfinishes rest (by omega)).bind (fun e he => by rw [he]) ?_)
      intro ast after hinside
      rw [hinside]
      refine .expect (fun e he => by simp only [he]) fun rest hrest => ?_
      simp only [expect_eq_ok_iff.mpr hrest]
      exact .answer rfl
    · next hopen heq =>
      cases heq
      split
      · next hhead =>
        obtain ⟨p, rfl⟩ := punct_of_head? hhead
        unfold Expr.postfixed
        split
        · next heq => cases heq
        · next heq =>
          cases heq
          exact (hopen rfl).elim
        · next heq =>
          cases heq
          exact .answer rfl
      · next head hhead =>
        rw [postfixed_of_head? hhead]
        refine .set ((finishes_steps hinner hfinishes (Nat.le_refl _) (by omega)).map
          (fun e he => by rw [he]) fun more rest hmore => by rw [hmore])

theorem finishes_prefixed {ts : List Token} (hbound : ts.length < bound + 1) :
    Finishes prefixed ts (Expr.prefixed inner ts) := by
  induction ts with
  | nil => exact .succ (finishes_postfixed hinner hfinishes hbound)
  | cons t ts ih =>
    rw [List.length_cons] at hbound
    have hinside := ih (by omega)
    apply Finishes.succ
    simp only [prefixed]
    apply Finishes.get
    split
    · next heq =>
      cases heq
      rw [Expr.prefixed]
      exact .set (hinside.map (fun e he => by rw [he]) fun ast rest hast => by rw [hast])
    · next heq =>
      cases heq
      rw [Expr.prefixed]
      exact .set (hinside.map (fun e he => by rw [he]) fun ast rest hast => by rw [hast])
    · next hbang hminus =>
      rw [Expr.prefixed.eq_3 _ _ hbang hminus]
      exact finishes_postfixed hinner hfinishes hbound

end Inner

section Layers

variable {bound : Nat} {l : Layer} {tighter : List Layer} {level : List (Punct × BinaryOp)}
  {lower : List (List (Punct × BinaryOp))} {operand : Parser Ast}

theorem finishes_chain (hlevel : l.Has level)
    (hoperand : Reads (bound + 1) (Layered tighter) (Ends tighter) operand)
    (hfinishes : ∀ ts : List Token, ts.length < bound + 1 →
      Finishes (fun fuel => layered fuel lower) ts (operand ts))
    {turns : Nat} {left : Ast} {ts : List Token} (hturns : ts.length ≤ turns)
    (hbound : ts.length < bound + 1) :
    Finishes (fun fuel => continued fuel level lower left) ts
      (chain level operand turns left ts) := by
  induction turns generalizing left ts with
  | zero =>
    obtain rfl := List.length_eq_zero_iff.mp (Nat.le_zero.mp hturns)
    apply Finishes.succ
    simp only [continued]
    apply Finishes.get
    exact .answer rfl
  | succ turns ih =>
    apply Finishes.succ
    simp only [continued]
    apply Finishes.get
    rw [chain]
    cases hop : operatorAt? level ts with
    | none => exact .answer rfl
    | some found =>
      obtain ⟨op, rest⟩ := found
      obtain ⟨p, rfl, -⟩ := (operatorAt?_eq_some_iff hlevel).mp hop
      rw [List.length_cons] at hturns hbound
      refine .set ((hfinishes rest (by omega)).bind (fun e he => by simp only [he]) ?_)
      intro right after hright
      obtain ⟨used, rfl, -⟩ := hoperand.sound hright
      rw [List.length_append] at hturns hbound
      simp only [hright]
      exact ih (by omega) (by omega)

theorem finishes_layered {layers : List Layer} {levels : List (List (Punct × BinaryOp))}
    (hlevels : List.Forall₂ Layer.Has layers levels) (hnodup : layers.Nodup)
    {base : Parser Ast} (hbase : Reads (bound + 1) Prefixed (Ends []) base)
    (hfinishes : ∀ ts : List Token, ts.length < bound + 1 → Finishes prefixed ts (base ts))
    {ts : List Token} (hbound : ts.length < bound + 1) :
    Finishes (fun fuel => layered fuel levels) ts (levels.foldr leftAssoc base ts) := by
  induction hlevels generalizing ts with
  | nil => exact .succ (hfinishes ts hbound)
  | @cons l level layers lower hlevel hlower ih =>
    obtain ⟨-, hrest⟩ := List.nodup_cons.mp hnodup
    have hoperand := reads_foldr hlower hrest hbase
    apply Finishes.succ
    simp only [layered]
    rw [List.foldr_cons, leftAssoc]
    refine (ih hrest hbound).bind (fun e he => by rw [he]) fun left rest hleft => ?_
    obtain ⟨used, rfl, -⟩ := hoperand.sound hleft
    rw [List.length_append] at hbound
    rw [hleft]
    exact finishes_chain hlevel hoperand (fun ts hts => ih hrest hts) (Nat.le_refl _) (by omega)

end Layers

theorem finishes_expression (bound : Nat) {ts : List Token} (hbound : ts.length < bound) :
    Finishes (fun fuel => layered fuel levels) ts (expression bound ts) := by
  induction bound generalizing ts with
  | zero => omega
  | succ bound ih =>
    have hinner := reads_expression bound
    exact finishes_layered forall₂_levels (by decide) (reads_prefixed hinner)
      (fun ts hts => finishes_prefixed hinner (fun ts hts => ih hts) hts) hbound

theorem ofTokens_finishes (ts : List Token) :
    ∃ fuel, ∀ more, ofTokens (fuel + more) ts = some (Expr.ofTokens ts) := by
  cases ts with
  | nil => exact ⟨0, fun _ => rfl⟩
  | cons t ts =>
    obtain ⟨fuel, hfuel⟩ := finishes_expression _ (Nat.lt_succ_self (t :: ts).length)
    refine ⟨fuel, fun more => ?_⟩
    have hanswer := hfuel _ (Nat.le_add_right fuel more)
    rcases hexpr : expression ((t :: ts).length + 1) (t :: ts) with e | ⟨ast, _ | ⟨u, us⟩⟩ <;>
      simp only [ofTokens, Expr.ofTokens, hanswer, hexpr, Option.map_some]

end Descent

/-- An operand is read if and only if all its tokens together are an expression of the grammar, as
the tree that they stand for, of which there is at most one. The descent gives this answer on every
list of tokens as soon as it may go as deep and turn as often as it needs. -/
theorem parse_grammar :
    (∀ cs ast, parse cs = .ok ast ↔ ∃ ts, tokens cs = .ok ts ∧ Expression ts ast) ∧
      (∀ ts ast, ofTokens ts = .ok ast ↔ Expression ts ast) ∧
      (∀ ts a b, Expression ts a → Expression ts b → a = b) ∧
      ∀ ts, ∃ fuel, ∀ more, Descent.ofTokens (fuel + more) ts = some (ofTokens ts) := by
  refine ⟨fun cs ast => ?_, fun _ _ => ofTokens_eq_ok_iff, fun ts a b ha hb => ?_,
    Descent.ofTokens_finishes⟩
  · unfold parse
    cases tokens cs with
    | error e => simp
    | ok ts => simp [ofTokens_eq_ok_iff]
  · rw [← ofTokens_eq_ok_iff] at ha hb
    rw [ha] at hb
    exact Except.ok.inj hb

example : ofTokens [.punct .minus, .int 1, .punct .minus, .name "a", .punct .minus, .name "b"] =
    .ok (.binary .sub (.binary .sub (.const (.int (-1))) (.path (.name "a") []))
      (.path (.name "b") [])) := rfl

end TemplateEngine.Expr

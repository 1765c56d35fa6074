import Mathlib.Data.List.Forall2
import TemplateEngine.Expr.Parse
import TemplateEngine.Proofs.Syntax.Grammar

/-! Reading an operand finds what the grammar says. A form is read up to its end if what follows
does not go on with it, which keeps the reading of a longer form from stopping short. -/
namespace TemplateEngine.Expr

open Grammar

/-- The punctuation that goes on with an operand after which operators of these layers may come. -/
def Punct.GoesOn (layers : List Layer) (p : Punct) : Prop :=
  p ∈ [.dot, .openBracket, .openParen] ∨ ∃ l op, p.operator? = some (l, op) ∧ l ∈ layers

/-- What follows an operand, where it does not go on with it. -/
def Ends (layers : List Layer) (rest : List Token) : Prop :=
  ∀ p more, rest = .punct p :: more → ¬p.GoesOn layers

section Ends

variable {layers : List Layer} {l : Layer} {p : Punct} {op : BinaryOp} {rest : List Token}

theorem ends_nil : Ends layers [] :=
  fun _ _ h => nomatch h

theorem ends_punct (h : ¬p.GoesOn layers) : Ends layers (.punct p :: rest) := by
  intro q more heq
  obtain ⟨hpq, -⟩ := List.cons.inj heq
  cases hpq
  exact h

theorem Ends.tighter (h : Ends (l :: layers) rest) : Ends layers rest := by
  intro p more heq hp
  refine h p more heq (hp.imp_right ?_)
  rintro ⟨l', op, hop, hl'⟩
  exact ⟨l', op, hop, List.mem_cons_of_mem _ hl'⟩

theorem not_goesOn_of_operator (hop : p.operator? = some (l, op)) (hl : l ∉ layers) :
    ¬p.GoesOn layers := by
  rintro (hmem | ⟨l', op', hop', hl'⟩)
  · simp only [List.mem_cons, List.not_mem_nil, or_false] at hmem
    obtain rfl | rfl | rfl := hmem <;> cases hop
  · rw [hop] at hop'
    cases hop'
    exact hl hl'

theorem Ends.not_access (h : Ends layers rest) :
    (∀ more, rest ≠ .punct .dot :: more) ∧ (∀ more, rest ≠ .punct .openBracket :: more) ∧
      ∀ more, rest ≠ .punct .openParen :: more :=
  ⟨fun more heq => h _ more heq (.inl (by decide)), fun more heq => h _ more heq (.inl (by decide)),
    fun more heq => h _ more heq (.inl (by decide))⟩

end Ends

/-- A reader takes a form off the front of the tokens, and takes every form that they begin with if
it ends there and they are fewer than `bound`. -/
structure Reads {α : Type} (bound : Nat) (D : List Token → α → Prop) (E : List Token → Prop)
    (p : Parser α) : Prop where
  sound {ts rest : List Token} {a : α} : p ts = .ok (a, rest) → ∃ used, ts = used ++ rest ∧ D used a
  complete {used rest : List Token} {a : α} : D used a → E rest → (used ++ rest).length < bound →
    p (used ++ rest) = .ok (a, rest)

/-- The operators of a level of the reader are those of a layer. -/
def Layer.Has (l : Layer) (level : List (Punct × BinaryOp)) : Prop :=
  ∀ p op, level.lookup p = some op ↔ p.operator? = some (l, op)

theorem forall₂_levels : List.Forall₂ Layer.Has Layer.all levels := by
  have has {l : Layer} {level : List (Punct × BinaryOp)}
      (h : ∀ p : Punct, level.lookup p = (p.operator?.filter (·.1 = l)).map (·.2)) :
      l.Has level := by
    intro p op
    rw [h p]
    simp [Option.filter_eq_some_iff, and_comm]
  unfold Layer.all levels
  repeat' constructor
  all_goals
    apply has
    intro p
    cases p <;> rfl

section Layers

variable {bound : Nat} {l : Layer} {tighter : List Layer} {level : List (Punct × BinaryOp)}
  {operand : Parser Ast} {left ast : Ast} {ts us rest : List Token}

theorem operatorAt?_eq_some_iff (hlevel : l.Has level) {op : BinaryOp} :
    operatorAt? level ts = some (op, rest) ↔
      ∃ p, ts = .punct p :: rest ∧ p.operator? = some (l, op) := by
  unfold operatorAt?
  split
  · next p more =>
    simp only [Option.map_eq_some_iff, hlevel p, Prod.mk.injEq, List.cons.injEq, Token.punct.injEq]
    constructor
    · rintro ⟨op', hop, rfl, rfl⟩
      exact ⟨p, ⟨rfl, rfl⟩, hop⟩
    · rintro ⟨p', ⟨rfl, rfl⟩, hop⟩
      exact ⟨op, hop, rfl, rfl⟩
  · next hne => exact ⟨nofun, fun ⟨p, heq, _⟩ => absurd heq (hne p rest)⟩

theorem operatorAt?_of_ends (hlevel : l.Has level) (h : Ends (l :: tighter) ts) :
    operatorAt? level ts = none := by
  rw [Option.eq_none_iff_forall_not_mem]
  rintro ⟨op, rest⟩ hmem
  obtain ⟨p, rfl, hop⟩ := (operatorAt?_eq_some_iff hlevel).mp hmem
  exact h p rest rfl (.inr ⟨l, op, hop, List.mem_cons_self⟩)

theorem chain_sound (hlevel : l.Has level)
    (hoperand : Reads bound (Layered tighter) (Ends tighter) operand) {turns : Nat}
    (h : chain level operand turns left ts = .ok (ast, rest)) :
    ∃ used, ts = used ++ rest ∧ Continued l tighter left used ast := by
  induction turns generalizing left ts with
  | zero =>
    cases h
    exact ⟨[], rfl, .done⟩
  | succ turns ih =>
    rw [chain] at h
    split at h
    · cases h
      exact ⟨[], rfl, .done⟩
    · next op after hop =>
      obtain ⟨p, rfl, hp⟩ := (operatorAt?_eq_some_iff hlevel).mp hop
      split at h
      · cases h
      · next right after' hright =>
        obtain ⟨used, rfl, hused⟩ := hoperand.sound hright
        obtain ⟨more, rfl, hmore⟩ := ih h
        exact ⟨.punct p :: (used ++ more), by simp, .operator hp hused hmore⟩

/-- Between an operand and the next operator of its layer nothing else can stand. -/
theorem Grammar.Continued.ends (h : Continued l tighter left us ast) (hl : l ∉ tighter)
    (hends : Ends (l :: tighter) rest) : Ends tighter (us ++ rest) := by
  cases h with
  | done => exact hends.tighter
  | operator hop => exact ends_punct (not_goesOn_of_operator hop hl)

theorem chain_complete (hlevel : l.Has level) (hl : l ∉ tighter)
    (hoperand : Reads bound (Layered tighter) (Ends tighter) operand) {turns : Nat}
    (hcontinued : Continued l tighter left us ast) (hends : Ends (l :: tighter) rest)
    (hturns : us.length ≤ turns) (hbound : (us ++ rest).length < bound) :
    chain level operand turns left (us ++ rest) = .ok (ast, rest) := by
  induction turns generalizing left us with
  | zero =>
    cases hcontinued with
    | done => rfl
    | operator => simp at hturns
  | succ turns ih =>
    rw [chain]
    cases hcontinued with
    | done => rw [List.nil_append, operatorAt?_of_ends hlevel hends]
    | @operator _ _ p op ts us _ right _ hop hright hmore =>
      simp only [List.length_cons, List.length_append, List.cons_append] at hturns hbound
      have hat : operatorAt? level (.punct p :: (ts ++ us) ++ rest) =
          some (op, ts ++ (us ++ rest)) :=
        (operatorAt?_eq_some_iff hlevel).mpr ⟨p, by simp, hop⟩
      have hread : operand (ts ++ (us ++ rest)) = .ok (right, us ++ rest) :=
        hoperand.complete hright (hmore.ends hl hends) (by simp only [List.length_append]; omega)
      rw [hat]
      simp only [hread]
      exact ih hmore (by omega) (by simp only [List.length_append]; omega)

theorem reads_leftAssoc (hlevel : l.Has level) (hl : l ∉ tighter)
    (hoperand : Reads bound (Layered tighter) (Ends tighter) operand) :
    Reads bound (Layered (l :: tighter)) (Ends (l :: tighter)) (leftAssoc level operand) where
  sound h := by
    unfold leftAssoc at h
    split at h
    · cases h
    · next first after hfirst =>
      obtain ⟨used, rfl, hused⟩ := hoperand.sound hfirst
      obtain ⟨more, rfl, hmore⟩ := chain_sound hlevel hoperand h
      exact ⟨used ++ more, by simp, .operators hused hmore⟩
  complete {used rest ast} hlayered hends hbound := by
    cases hlayered with
    | @operators _ _ ts us first _ hfirst hmore =>
      rw [List.append_assoc] at hbound ⊢
      have hread : operand (ts ++ (us ++ rest)) = .ok (first, us ++ rest) :=
        hoperand.complete hfirst (hmore.ends hl hends) hbound
      unfold leftAssoc
      simp only [hread]
      simp only [List.length_append] at hbound
      exact chain_complete hlevel hl hoperand hmore hends (by simp)
        (by simp only [List.length_append]; omega)

theorem reads_foldr {layers : List Layer} {levels : List (List (Punct × BinaryOp))}
    (hlevels : List.Forall₂ Layer.Has layers levels) (hnodup : layers.Nodup)
    {base : Parser Ast} (hbase : Reads bound Prefixed (Ends []) base) :
    Reads bound (Layered layers) (Ends layers) (levels.foldr leftAssoc base) := by
  induction hlevels with
  | nil =>
    refine ⟨fun h => ?_, fun h hends hbound => ?_⟩
    · obtain ⟨used, hts, hused⟩ := hbase.sound h
      exact ⟨used, hts, .prefixed hused⟩
    · cases h with
      | prefixed h => exact hbase.complete h hends hbound
  | cons hlevel _ ih =>
    obtain ⟨hl, hrest⟩ := List.nodup_cons.mp hnodup
    exact reads_leftAssoc hlevel hl (ih hrest)

end Layers

theorem expect_eq_ok_iff {p : Punct} {ts rest : List Token} :
    expect p ts = .ok rest ↔ ts = .punct p :: rest := by
  unfold expect
  split
  · simp
  · next q more =>
    split
    · next heq => simp [heq]
    · next hne => simp [Ne.symm hne]
  · next t more hne =>
    simp only [reduceCtorEq, List.cons.injEq, false_iff]
    rintro ⟨rfl, -⟩
    exact hne p rfl

/-- An operand begins with something else than a closing parenthesis, so an empty list of arguments
is told from others by its first token. -/
theorem Grammar.Prefixed.not_closeParen {ts rest : List Token} {ast : Ast} (h : Prefixed ts ast) :
    ∀ more, ts ++ rest ≠ .punct .closeParen :: more := by
  intro more heq
  cases h with
  | postfixed h =>
    cases h with
    | constant hliteral | literal hliteral =>
      obtain ⟨rfl, -⟩ := List.cons.inj heq
      cases hliteral
    | identifier hname =>
      obtain ⟨rfl, -⟩ := List.cons.inj heq
      cases hname
    | parens => cases heq
  | _ => cases heq

theorem Grammar.Layered.not_closeParen {layers : List Layer} {ts rest : List Token} {ast : Ast}
    (h : Layered layers ts ast) : ∀ more, ts ++ rest ≠ .punct .closeParen :: more := by
  induction layers generalizing ts rest ast with
  | nil =>
    cases h with
    | prefixed h => exact h.not_closeParen
  | cons l tighter ih =>
    cases h with
    | operators hfirst _ =>
      rw [List.append_assoc]
      exact ih hfirst

theorem Grammar.Arguments.not_closeParen {ts rest : List Token} {args : List Ast}
    (h : Arguments ts args) : ∀ more, ts ++ rest ≠ .punct .closeParen :: more := by
  cases h with
  | last h => exact h.not_closeParen
  | cons h =>
    rw [List.append_assoc]
    exact h.not_closeParen

section Inner

variable {bound : Nat} {inner : Parser Ast} (hinner : Reads bound Expression (Ends Layer.all) inner)
  {ts us rest : List Token}
include hinner

theorem arguments_sound {turns : Nat} {args : List Ast}
    (h : arguments inner turns ts = .ok (args, rest)) :
    ∃ used, ts = used ++ .punct .closeParen :: rest ∧ Arguments used args := by
  induction turns generalizing ts args with
  | zero => cases h
  | succ turns ih =>
    rw [arguments] at h
    split at h
    · cases h
    · next arg after harg =>
      cases h
      obtain ⟨used, rfl, hused⟩ := hinner.sound harg
      exact ⟨used, rfl, .last hused⟩
    · next arg after _ harg =>
      obtain ⟨used, rfl, hused⟩ := hinner.sound harg
      split at h
      · cases h
      · next after' hcomma =>
        obtain rfl := expect_eq_ok_iff.mp hcomma
        split at h
        · cases h
        · next more after' hmore =>
          cases h
          obtain ⟨used', rfl, hused'⟩ := ih hmore
          exact ⟨used ++ .punct .comma :: used', by simp, .cons hused hused'⟩

theorem arguments_complete {turns : Nat} {args : List Ast} (h : Arguments us args)
    (hturns : us.length < turns) (hbound : (us ++ .punct .closeParen :: rest).length < bound) :
    arguments inner turns (us ++ .punct .closeParen :: rest) = .ok (args, rest) := by
  have hends {p : Punct} {more : List Token} (hp : p = .closeParen ∨ p = .comma) :
      Ends Layer.all (.punct p :: more) := by
    apply ends_punct
    obtain rfl | rfl := hp <;> simp [Punct.GoesOn, Punct.operator?]
  induction turns generalizing us args with
  | zero => omega
  | succ turns ih =>
    rw [arguments]
    cases h with
    | last h => rw [hinner.complete h (hends (.inl rfl)) hbound]
    | @cons ts us arg args h hmore =>
      simp only [List.length_append, List.length_cons] at hturns hbound
      have hread : inner (ts ++ .punct .comma :: us ++ .punct .closeParen :: rest) =
          .ok (arg, .punct .comma :: (us ++ .punct .closeParen :: rest)) := by
        rw [List.append_assoc]
        exact hinner.complete h (hends (.inr rfl))
          (by simp only [List.length_append, List.length_cons]; omega)
      have hmore := ih hmore (by omega) (by simp only [List.length_append, List.length_cons]; omega)
      simp only [hread, expect, if_true, hmore]

theorem member_sound {s : Step} (h : member inner ts = .ok (s, rest)) :
    ∃ used, ts = used ++ rest ∧ Accessor (.punct .dot :: used) s := by
  unfold member at h
  split at h
  · cases h
    exact ⟨[_, _, _], rfl, .call _⟩
  · split at h
    · cases h
    · next args after hargs =>
      cases h
      obtain ⟨used, rfl, hused⟩ := arguments_sound hinner hargs
      exact ⟨_ :: _ :: (used ++ [.punct .closeParen]), by simp, .callWith hused⟩
  · cases h
    exact ⟨[_], rfl, .field _⟩
  · cases h
  · cases h

theorem member_complete {s : Step} (h : Accessor (.punct .dot :: us) s)
    (hrest : ∀ more, rest ≠ .punct .openParen :: more) (hbound : (us ++ rest).length < bound) :
    member inner (us ++ rest) = .ok (s, rest) := by
  cases h with
  | field s =>
    unfold member
    split
    · next heq =>
      simp only [List.cons_append, List.nil_append, List.cons.injEq] at heq
      exact absurd heq.2 (hrest _)
    · next heq =>
      simp only [List.cons_append, List.nil_append, List.cons.injEq] at heq
      exact absurd heq.2 (hrest _)
    · next heq =>
      simp only [List.cons_append, List.nil_append, List.cons.injEq, Token.name.injEq] at heq
      rw [heq.1, heq.2]
    · next hname heq =>
      simp only [List.cons_append, List.nil_append, List.cons.injEq] at heq
      exact absurd heq.1.symm (hname s)
    · next heq => cases heq
  | call s => rfl
  | @callWith s ts args hargs =>
    simp only [List.length_cons, List.length_append, List.length_nil, List.cons_append] at hbound
    have hread : arguments inner ((ts ++ .punct .closeParen :: rest).length + 1)
        (ts ++ .punct .closeParen :: rest) = .ok (args, rest) :=
      arguments_complete hinner hargs (by simp only [List.length_append]; omega)
        (by simp only [List.length_append, List.length_cons]; omega)
    have hclose : ∀ more, ts ++ .punct .closeParen :: rest ≠ .punct .closeParen :: more :=
      hargs.not_closeParen
    have heq : .name s :: .punct .openParen :: (ts ++ [.punct .closeParen]) ++ rest =
        .name s :: .punct .openParen :: (ts ++ .punct .closeParen :: rest) := by simp
    rw [heq, member]
    · rw [hread]
    · exact fun more hmore => hclose more hmore

omit hinner in
theorem subscript_sound {s : Step} (h : subscript ts = .ok (s, rest)) :
    ∃ used, ts = used ++ rest ∧ Accessor (.punct .openBracket :: used) s := by
  unfold subscript at h
  split at h
  next step after hstep =>
  split at hstep
  all_goals
    cases hstep
    dsimp only at h
  · split at h
    · cases h
    · next hclose =>
      cases h
      obtain rfl := expect_eq_ok_iff.mp hclose
      exact ⟨[_, _, _], rfl, .indexFromEnd _⟩
  · split at h
    · cases h
    · next hclose =>
      cases h
      obtain rfl := expect_eq_ok_iff.mp hclose
      exact ⟨[_, _], rfl, .index _⟩
  · split at h
    · cases h
    · next hclose =>
      cases h
      obtain rfl := expect_eq_ok_iff.mp hclose
      exact ⟨[_, _], rfl, .key _⟩
  · cases h

omit hinner in
theorem subscript_complete {s : Step} (h : Accessor (.punct .openBracket :: us) s) :
    subscript (us ++ rest) = .ok (s, rest) := by
  cases h <;> rfl

end Inner

/-- The access that some tokens begin with, if they begin with one. -/
def access? (inner : Parser Ast) : List Token → Option (Except SyntaxError (Step × List Token))
  | .punct .dot :: rest => some (member inner rest)
  | .punct .openBracket :: rest => some (subscript rest)
  | _ => none

theorem steps_succ (inner : Parser Ast) (turns : Nat) (ts : List Token) :
    steps inner (turns + 1) ts =
      match access? inner ts with
      | none => .ok ([], ts)
      | some (.error e) => .error e
      | some (.ok (step, rest)) =>
        match steps inner turns rest with
        | .error e => .error e
        | .ok (more, rest) => .ok (step :: more, rest) := rfl

theorem access?_of_ends {layers : List Layer} {inner : Parser Ast} {rest : List Token}
    (h : Ends layers rest) : access? inner rest = none := by
  obtain ⟨hdot, hbracket, -⟩ := h.not_access
  unfold access?
  split
  · exact absurd rfl (hdot _)
  · exact absurd rfl (hbracket _)
  · rfl

theorem Grammar.Accessor.length_pos {ts : List Token} {s : Step} (h : Accessor ts s) :
    0 < ts.length := by
  cases h <;> simp

/-- After an access no parenthesis can open. -/
theorem Grammar.Accessors.not_openParen {layers : List Layer} {us rest : List Token}
    {more : List Step} (h : Accessors us more) (hends : Ends layers rest) :
    ∀ after, us ++ rest ≠ .punct .openParen :: after := by
  intro after heq
  cases h with
  | nil => exact hends.not_access.2.2 after heq
  | cons h => cases h <;> cases heq

section Inner

variable {bound : Nat} {inner : Parser Ast} (hinner : Reads bound Expression (Ends Layer.all) inner)
  {ts us rest : List Token}
include hinner

theorem access?_sound {s : Step} (h : access? inner ts = some (.ok (s, rest))) :
    ∃ used, ts = used ++ rest ∧ Accessor used s := by
  unfold access? at h
  split at h
  · obtain ⟨used, rfl, hused⟩ := member_sound hinner (Option.some.inj h)
    exact ⟨_, rfl, hused⟩
  · obtain ⟨used, rfl, hused⟩ := subscript_sound (Option.some.inj h)
    exact ⟨_, rfl, hused⟩
  · cases h

theorem access?_complete {s : Step} (h : Accessor us s)
    (hrest : ∀ more, rest ≠ .punct .openParen :: more) (hbound : (us ++ rest).length < bound) :
    access? inner (us ++ rest) = some (.ok (s, rest)) := by
  obtain ⟨used, rfl | rfl⟩ :
      ∃ used, us = .punct .dot :: used ∨ us = .punct .openBracket :: used := by
    cases h
    all_goals first | exact ⟨_, .inl rfl⟩ | exact ⟨_, .inr rfl⟩
  · simp only [List.cons_append, List.length_cons] at hbound
    rw [List.cons_append, access?, member_complete hinner h hrest (by omega)]
  · rw [List.cons_append, access?, subscript_complete h]

theorem steps_sound {turns : Nat} {more : List Step} (h : steps inner turns ts = .ok (more, rest)) :
    ∃ used, ts = used ++ rest ∧ Accessors used more := by
  induction turns generalizing ts more with
  | zero =>
    cases h
    exact ⟨[], rfl, .nil⟩
  | succ turns ih =>
    rw [steps_succ] at h
    split at h
    · cases h
      exact ⟨[], rfl, .nil⟩
    · cases h
    · next s after hs =>
      obtain ⟨used, rfl, hused⟩ := access?_sound hinner hs
      split at h
      · cases h
      · next hmore =>
        cases h
        obtain ⟨used', rfl, hused'⟩ := ih hmore
        exact ⟨used ++ used', by simp, .cons hused hused'⟩

theorem steps_complete {layers : List Layer} {turns : Nat} {more : List Step}
    (h : Accessors us more)
    (hends : Ends layers rest) (hturns : us.length ≤ turns) (hbound : (us ++ rest).length < bound) :
    steps inner turns (us ++ rest) = .ok (more, rest) := by
  induction turns generalizing us more with
  | zero =>
    cases h with
    | nil => rfl
    | cons h => cases h <;> simp at hturns
  | succ turns ih =>
    rw [steps_succ]
    cases h with
    | nil => rw [List.nil_append, access?_of_ends hends]
    | @cons ts us s more h hmore =>
      have hts := h.length_pos
      simp only [List.length_append] at hturns hbound
      have hread : access? inner (ts ++ (us ++ rest)) = some (.ok (s, us ++ rest)) :=
        access?_complete hinner h (hmore.not_openParen hends)
          (by simp only [List.length_append]; omega)
      rw [List.append_assoc, hread]
      simp only [ih hmore (by omega) (by simp only [List.length_append]; omega)]

end Inner

theorem head?_eq_some_iff {t : Token} {head : Head} :
    t.head? = some head ↔ Identifier t head ∨ ∃ v, head = .literal v ∧ Literal t v := by
  constructor
  · intro h
    unfold Token.head? at h
    split at h
    all_goals cases h
    · exact .inr ⟨_, rfl, .int _⟩
    · exact .inr ⟨_, rfl, .float _⟩
    · exact .inr ⟨_, rfl, .str _⟩
    · exact .inr ⟨_, rfl, .true⟩
    · exact .inr ⟨_, rfl, .false⟩
    · exact .inr ⟨_, rfl, .null⟩
    · exact .inl .this
    · refine .inl (.name ?_)
      simp_all [Text.reserved]
  · rintro (h | ⟨v, rfl, h⟩)
    · cases h with
      | this => rfl
      | name hname =>
        simp only [Text.reserved, List.mem_cons, List.not_mem_nil, or_false, not_or] at hname
        unfold Token.head?
        split <;> simp_all
    · cases h <;> rfl

theorem punct_of_head? {t : Token} (h : t.head? = none) : ∃ p, t = .punct p := by
  unfold Token.head? at h
  split at h
  all_goals first | exact ⟨_, rfl⟩ | cases h

theorem Grammar.Identifier.ofPath {t : Token} {head : Head} (h : Identifier t head)
    (steps : List Step) : Ast.ofPath head steps = .path head steps := by
  cases h <;> rfl

theorem postfixed_of_head? {inner : Parser Ast} {t : Token} {head : Head} (h : t.head? = some head)
    (rest : List Token) :
    postfixed inner (t :: rest) =
      match steps inner rest.length rest with
      | .error e => .error e
      | .ok (more, rest) => .ok (.ofPath head more, rest) := by
  cases t with
  | punct p => cases h
  | _ =>
    cases hsteps : steps inner rest.length rest <;> simp only [postfixed, h, hsteps]

section Inner

variable {bound : Nat} {inner : Parser Ast} (hinner : Reads bound Expression (Ends Layer.all) inner)
include hinner

theorem postfixed_complete {t : Token} {head : Head} {us rest : List Token} {more : List Step}
    (hhead : t.head? = some head) (h : Accessors us more) (hends : Ends [] rest)
    (hbound : (us ++ rest).length < bound) :
    postfixed inner (t :: (us ++ rest)) = .ok (.ofPath head more, rest) := by
  rw [postfixed_of_head? hhead, steps_complete hinner h hends (by simp) hbound]

theorem reads_postfixed : Reads (bound + 1) Postfixed (Ends []) (postfixed inner) where
  sound {ts rest ast} h := by
    unfold postfixed at h
    split at h
    · cases h
    · split at h
      · cases h
      · next hinside =>
        split at h
        · cases h
        · next hclose =>
          cases h
          obtain rfl := expect_eq_ok_iff.mp hclose
          obtain ⟨used, rfl, hused⟩ := hinner.sound hinside
          exact ⟨.punct .openParen :: (used ++ [.punct .closeParen]), by simp, .parens hused⟩
    · next t after _ =>
      split at h
      · cases h
      · next head hhead =>
        split at h
        · cases h
        · next hmore =>
          cases h
          obtain ⟨used, rfl, hused⟩ := steps_sound hinner hmore
          refine ⟨t :: used, rfl, ?_⟩
          obtain hname | ⟨v, rfl, hliteral⟩ := head?_eq_some_iff.mp hhead
          · rw [hname.ofPath]
            exact .identifier hname hused
          · cases hused with
            | nil => exact .constant hliteral
            | cons hs hused => exact .literal hliteral (.cons hs hused)
  complete {used rest ast} h hends hbound := by
    cases h with
    | @parens ts ast h =>
      have hclose : Ends Layer.all (.punct .closeParen :: rest) :=
        ends_punct (by simp [Punct.GoesOn, Punct.operator?])
      simp only [List.cons_append, List.append_assoc, List.nil_append, List.length_cons] at hbound ⊢
      rw [postfixed, hinner.complete h hclose (by omega)]
      rfl
    | constant h =>
      have hhead := head?_eq_some_iff.mpr (.inr ⟨_, rfl, h⟩)
      exact postfixed_complete hinner hhead .nil hends (by simpa using hbound)
    | literal h hmore =>
      have hhead := head?_eq_some_iff.mpr (.inr ⟨_, rfl, h⟩)
      exact postfixed_complete hinner hhead hmore hends (by simpa using hbound)
    | identifier h hmore =>
      have hhead := head?_eq_some_iff.mpr (.inl h)
      rw [← h.ofPath]
      exact postfixed_complete hinner hhead hmore hends (by simpa using hbound)

end Inner

theorem Ast.negated_of_not_isNumber {ast : Ast} (h : ¬IsNumber ast) :
    ast.negated = .unary .neg ast := by
  unfold negated
  split
  · exact absurd trivial h
  · exact absurd trivial h
  · rfl

theorem Grammar.Prefixed.negated {ts : List Token} {ast : Ast} (h : Prefixed ts ast) :
    Prefixed (.punct .minus :: ts) ast.negated := by
  by_cases hnumber : IsNumber ast
  · unfold IsNumber at hnumber
    split at hnumber
    · exact .negInt h
    · exact .negFloat h
    · exact hnumber.elim
  · rw [Ast.negated_of_not_isNumber hnumber]
    exact .neg h hnumber

/-- A value is no operator. -/
theorem prefixed_of_postfixed {inner : Parser Ast} {ts rest : List Token} {ast : Ast}
    (h : Postfixed ts ast) : prefixed inner (ts ++ rest) = postfixed inner (ts ++ rest) := by
  cases h with
  | parens => rfl
  | constant h | literal h => cases h <;> rfl
  | identifier h => cases h <;> rfl

theorem reads_prefixed {bound : Nat} {inner : Parser Ast}
    (hinner : Reads bound Expression (Ends Layer.all) inner) :
    Reads (bound + 1) Prefixed (Ends []) (prefixed inner) where
  sound {ts rest ast} h := by
    induction ts generalizing ast with
    | nil => cases h
    | cons t ts ih =>
      unfold prefixed at h
      split at h
      · next heq =>
        cases heq
        split at h
        · cases h
        · next hread =>
          cases h
          obtain ⟨used, rfl, hused⟩ := ih hread
          exact ⟨_ :: used, rfl, .not hused⟩
      · next heq =>
        cases heq
        split at h
        · cases h
        · next hread =>
          cases h
          obtain ⟨used, rfl, hused⟩ := ih hread
          exact ⟨_ :: used, rfl, hused.negated⟩
      · obtain ⟨used, hts, hused⟩ := (reads_postfixed hinner).sound h
        exact ⟨used, hts, .postfixed hused⟩
  complete {used rest ast} h hends hbound := by
    induction used generalizing ast with
    | nil =>
      cases h with
      | postfixed h => cases h
    | cons t ts ih =>
      have hread {inside : Ast} (h : Prefixed ts inside) :
          prefixed inner (ts ++ rest) = .ok (inside, rest) := by
        simp only [List.cons_append, List.length_cons] at hbound
        exact ih h (by omega)
      cases h with
      | not h => rw [List.cons_append, prefixed, hread h]
      | negInt h | negFloat h =>
        rw [List.cons_append, prefixed, hread h]
        rfl
      | neg h hnumber =>
        rw [List.cons_append, prefixed, hread h]
        simp only [Ast.negated_of_not_isNumber hnumber]
      | postfixed h =>
        rw [prefixed_of_postfixed h, (reads_postfixed hinner).complete h hends hbound]

/-- Enough pairs of parentheses for a list of tokens are as many as it has tokens. -/
theorem reads_expression (bound : Nat) :
    Reads bound Expression (Ends Layer.all) (expression bound) := by
  induction bound with
  | zero => exact ⟨nofun, fun _ _ h => absurd h (Nat.not_lt_zero _)⟩
  | succ bound ih => exact reads_foldr forall₂_levels (by decide) (reads_prefixed ih)

/-- The tokens of an operand are those that the grammar makes a whole operand of, and its tree is
the one that they stand for. -/
theorem ofTokens_eq_ok_iff {ts : List Token} {ast : Ast} :
    ofTokens ts = .ok ast ↔ Expression ts ast := by
  have hread : expression (ts.length + 1) ts = .ok (ast, []) ↔ Expression ts ast := by
    constructor
    · intro h
      obtain ⟨used, rfl, hused⟩ := (reads_expression _).sound h
      rwa [List.append_nil]
    · intro h
      have hread := (reads_expression (ts.length + 1)).complete h ends_nil (by simp)
      rwa [List.append_nil] at hread
  rw [← hread]
  unfold ofTokens
  split
  · exact ⟨nofun, nofun⟩
  · next hne =>
    generalize expression (ts.length + 1) ts = r
    match r with
    | .error e => simp
    | .ok (ast', []) => simp
    | .ok (ast', t :: rest) => simp

end TemplateEngine.Expr

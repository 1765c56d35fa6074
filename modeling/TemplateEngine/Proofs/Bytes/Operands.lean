import TemplateEngine.Compile.Lowering
import TemplateEngine.Proofs.Bytes.Marker
import TemplateEngine.Proofs.Bytes.Tokens

/-! The operands of a marker by their bytes: the arguments of a call are taken from its text by the
places of the commas, and an unknown name is compared with the operand by their first bytes. -/
namespace TemplateEngine

open Text (byteLength slice? sliceFrom? place place_append)

/-- The parts of a text between the separators at top level, of which the next one begins at
`start`. The text is gone through up to `n`. -/
def Text.splitAtTopFrom? (sep : Char) (text : List Char) (n : Nesting) (start : Nat) :
    (rest : List Char) → Option (List (List Char))
  | [] => (sliceFrom? text start).map ([·])
  | c :: rest =>
    if n.isTop && c == sep then do
      let part ← slice? text start (place text (c :: rest))
      return part :: (← splitAtTopFrom? sep text n (place text (c :: rest) + 1) rest)
    else splitAtTopFrom? sep text (n.step c) start rest

def Text.splitAtTop? (sep : Char) (text : List Char) : Option (List (List Char)) :=
  splitAtTopFrom? sep text {} 0 text

def unknownText? (operand : List Char) (name : String) : Option String :=
  if (Text.stripPrefix? name.toList operand).isSome then do
    let rest ← sliceFrom? operand (byteLength name.toList)
    return if rest.all fun c => Text.isAlphanumeric c || "_.[]\x22\x27".toList.contains c then
      String.ofList operand
    else name
  else some name

namespace Lowering

variable {α β : Type}

/-- A lowering that may give nothing at all, and does not. -/
def total (x : StateM Lowering α) : StateT Lowering Option α :=
  fun s => some (x.run s)

theorem total_pure (a : α) : total (pure a) = pure a := rfl

theorem total_bind (x : StateM Lowering α) (f : α → StateM Lowering β) :
    total (x >>= f) = (total x >>= fun a => total (f a)) := rfl

def root? (names : Names) (operand : List Char) (head : Expr.Head) :
    StateT Lowering Option (Option Root) :=
  match names.root? head, head with
  | some r, _ => pure (some r)
  | none, .name s => do
    total (reportUnknown (← unknownText? operand s))
    pure none
  | none, _ => pure none

mutual

def expr? (names : Names) (operand : List Char) : Expr.Ast → StateT Lowering Option ExprId
  | .const v => total (alloc (.const v))
  | .path head steps => do
    match ← root? names operand head with
    | some r => total (alloc (.path ⟨r, ← accesses? names operand steps⟩))
    | none => total (alloc (.const .null))
  | .unary op inner => do
    let inner ← expr? names operand inner
    total (alloc (.unary op inner))
  | .binary op left right => do
    let left ← expr? names operand left
    let right ← expr? names operand right
    total (alloc (.binary op left right))

def access? (names : Names) (operand : List Char) : Expr.Step → StateT Lowering Option Access
  | .field name => pure (.field name)
  | .index i => pure (.index i)
  | .key k => pure (.key k)
  | .call name args => do return .call name (← arguments? names operand args)

def accesses? (names : Names) (operand : List Char) :
    List Expr.Step → StateT Lowering Option (List Access)
  | [] => pure []
  | s :: rest => do
    let a ← access? names operand s
    return a :: (← accesses? names operand rest)

def arguments? (names : Names) (operand : List Char) :
    List Expr.Ast → StateT Lowering Option (List ExprId)
  | [] => pure []
  | e :: rest => do
    let id ← expr? names operand e
    return id :: (← arguments? names operand rest)

end

def operandOf? (names : Names) (operand : List Char) : Expr.Ast → StateT Lowering Option Operand
  | .const v => pure (.constant v)
  | .path head steps => do
    match ← root? names operand head with
    | none => pure (.constant .null)
    | some r =>
      match r, ← accesses? names operand steps with
      | .slot s, [] => pure (.slot s)
      | .constant v, [] => pure (.constant v)
      | r, accesses => pure (.path ⟨r, accesses⟩)
  | ast => do return .expr (← expr? names operand ast)

def ofText? (names : Names) (arena : Arena) (text : List Char) :
    Lookup Fault (Operand × Lowering) := do
  let text := Text.trim text
  let ast ← (Expr.parse? text).adapt (.invalidExpression (String.ofList text))
  (operandOf? names text ast).run { arena }

end Lowering

/-! Nothing is missing. -/

theorem Text.splitAtTop_eq (sep : Char) (cs : List Char) :
    splitAtTop sep cs =
      match cutAtTop sep cs with
      | some (part, after) => part :: splitAtTop sep after
      | none => [cs] := by
  rw [splitAtTop]
  split
  · next hcut => simp only [hcut]
  · next hcut => simp only [hcut]

theorem Scanner.Quoting.of_isTop {n : Text.Nesting} (h : Quoting n) (hn : n.isTop) : n = {} := by
  obtain ⟨depth, quote, escaped⟩ := n
  obtain ⟨-, hescaped⟩ := h
  simp only [Text.Nesting.isTop, Bool.and_eq_true, Option.isNone_iff_eq_none, beq_iff_eq] at hn
  obtain ⟨rfl, rfl⟩ := hn
  cases escaped with
  | true => cases hescaped rfl
  | false => rfl

theorem Text.splitAtTopFrom?_eq {sep : Char} (hsep : sep.utf8Size = 1) {text before cs : List Char}
    {n : Nesting} (hn : Scanner.Quoting n) {seen : List Char}
    (h : text = before ++ (seen.reverse ++ cs)) :
    splitAtTopFrom? sep text n (byteLength before) cs =
      some (match n.cutFrom sep seen cs with
        | some (part, after) => part :: splitAtTop sep after
        | none => [seen.reverse ++ cs]) := by
  induction cs generalizing before n seen with
  | nil =>
    rw [splitAtTopFrom?, sliceFrom?_of_eq h rfl]
    rfl
  | cons c cs ih =>
    rw [splitAtTopFrom?, Nesting.cutFrom]
    split
    · next htop =>
      have htext : text = (before ++ seen.reverse) ++ c :: cs := by rw [h, List.append_assoc]
      obtain ⟨htop, hc⟩ := Bool.and_eq_true_iff.mp htop
      obtain rfl := hn.of_isTop htop
      obtain rfl := beq_iff_eq.mp hc
      have hslice : slice? text (byteLength before) (place text (c :: cs)) = some seen.reverse := by
        refine slice?_of_eq h rfl ?_
        rw [htext, place_append, byteLength_append]
      have hnext : place text (c :: cs) + 1 = byteLength (before ++ seen.reverse ++ [c]) :=
        Expr.next_of_utf8Size htext hsep
      have hrest : text = (before ++ seen.reverse ++ [c]) ++ ([].reverse ++ cs) := by simp [h]
      rw [hnext, hslice, ih hn hrest]
      exact congrArg (fun parts => some (seen.reverse :: parts)) (splitAtTop_eq c cs).symm
    · have hrest : text = before ++ ((c :: seen).reverse ++ cs) := by simp [h]
      rw [ih (hn.step c) hrest, List.reverse_cons, List.append_assoc]
      rfl

theorem Text.splitAtTop?_eq {sep : Char} (hsep : sep.utf8Size = 1) (text : List Char) :
    splitAtTop? sep text = some (splitAtTop sep text) := by
  have htext : text = [] ++ ([].reverse ++ text) := rfl
  have hstart : Scanner.Quoting {} := ⟨nofun, nofun⟩
  rw [splitAtTop_eq]
  exact splitAtTopFrom?_eq hsep hstart htext

theorem unknownText?_eq (operand : List Char) (name : String) :
    unknownText? operand name = some (unknownText operand name) := by
  rw [unknownText?, unknownText]
  cases hstrip : Text.stripPrefix? name.toList operand with
  | none => rfl
  | some rest =>
    rw [Option.isSome_some, if_pos rfl,
      Text.sliceFrom?_of_eq (Text.stripPrefix?_eq_some_iff.mp hstrip) rfl]
    rfl

namespace Lowering

variable {names : Names} {operand : List Char}

theorem root?_eq (head : Expr.Head) :
    root? names operand head = total (root names operand head) := by
  unfold root? root
  cases names.root? head with
  | some r => rfl
  | none =>
    cases head with
    | name s =>
      simp only [unknownText?_eq]
      rfl
    | this => rfl
    | literal v => rfl

mutual

theorem expr?_eq (ast : Expr.Ast) : expr? names operand ast = total (expr names operand ast) := by
  cases ast with
  | const v => rw [expr?, expr]
  | path head steps =>
    rw [expr?, expr, root?_eq, total_bind]
    congr 1
    funext r
    cases r with
    | none => rfl
    | some r =>
      dsimp only
      rw [accesses?_eq steps, total_bind]
  | unary op inner =>
    rw [expr?, expr, expr?_eq inner, total_bind]
  | binary op left right =>
    rw [expr?, expr, expr?_eq left, expr?_eq right, total_bind]
    simp only [total_bind]

theorem access?_eq (s : Expr.Step) :
    access? names operand s = total (access names operand s) := by
  cases s with
  | call name args =>
    rw [access?, access, arguments?_eq args, total_bind]
    rfl
  | field name => rw [access?, access, total_pure]
  | index i => rw [access?, access, total_pure]
  | key k => rw [access?, access, total_pure]

theorem accesses?_eq (steps : List Expr.Step) :
    accesses? names operand steps = total (accesses names operand steps) := by
  cases steps with
  | nil => rw [accesses?, accesses, total_pure]
  | cons s rest =>
    rw [accesses?, accesses, access?_eq s, accesses?_eq rest, total_bind]
    simp only [total_bind]
    rfl

theorem arguments?_eq (args : List Expr.Ast) :
    arguments? names operand args = total (arguments names operand args) := by
  cases args with
  | nil => rw [arguments?, arguments, total_pure]
  | cons e rest =>
    rw [arguments?, arguments, expr?_eq e, arguments?_eq rest, total_bind]
    simp only [total_bind]
    rfl

end

theorem operandOf?_eq (ast : Expr.Ast) :
    operandOf? names operand ast = total (operandOf names operand ast) := by
  cases ast with
  | const v => rfl
  | path head steps =>
    rw [operandOf?, operandOf, root?_eq, total_bind]
    congr 1
    funext r
    cases r with
    | none => rfl
    | some r =>
      dsimp only
      rw [accesses?_eq steps, total_bind]
      congr 1
      funext accesses
      cases r <;> cases accesses <;> rfl
  | unary op inner =>
    unfold operandOf? operandOf
    dsimp only
    rw [expr?_eq, total_bind]
    rfl
  | binary op left right =>
    unfold operandOf? operandOf
    dsimp only
    rw [expr?_eq, total_bind]
    rfl

theorem ofText?_eq (names : Names) (arena : Arena) (text : List Char) :
    ofText? names arena text = .total (ofText names arena text) := by
  unfold ofText? ofText
  dsimp only
  rw [Expr.parse?_eq]
  cases Expr.parse (Text.trim text) with
  | error reason => rfl
  | ok ast =>
    change (do ((operandOf? names (Text.trim text) ast).run { arena } : Option _) :
      Lookup Fault (Operand × Lowering)) = _
    rw [operandOf?_eq]
    rfl

end Lowering

end TemplateEngine

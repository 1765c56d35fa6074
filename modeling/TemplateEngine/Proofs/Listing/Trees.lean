import TemplateEngine.Proofs.Listing.Values
import TemplateEngine.Proofs.References.Tree

/-! Trees as a listing shows them. Such a text tells the tree and where it ends, if what follows
does not go on with it. -/
namespace TemplateEngine

open TemplateEngine.Text (NameParts Stops Solid commas)

section Shown

variable (name : SlotId → String)

def slotShown (slot : SlotId) : List Char :=
  '$' :: ((toString slot).toList ++ ':' :: (name slot).toList)

def Root.shown : Root → List Char
  | .slot s => slotShown name s
  | .constant v => v.listing.toList
  | .target => ['t', 'h', 'i', 's']

mutual

def Tree.shown : Tree → List Char
  | .const v => v.listing.toList
  | .path root steps => root.shown name ++ stepsShown steps
  | .unary op operand => op.symbol.toList ++ operand.shown
  | .binary op left right =>
    '(' :: (left.shown ++ ' ' :: (op.symbol.toList ++ ' ' :: (right.shown ++ [')'])))

def TreeStep.shown : TreeStep → List Char
  | .field name => '.' :: name.toList
  | .index i => '[' :: ((intText i).toList ++ [']'])
  | .key k => '[' :: ((Text.quote k).toList ++ [']'])
  | .call name args => '.' :: (name.toList ++ '(' :: (commas (argumentsShown args) ++ [')']))

def stepsShown : List TreeStep → List Char
  | [] => []
  | step :: rest => step.shown ++ stepsShown rest

def argumentsShown : List Tree → List (List Char)
  | [] => []
  | arg :: rest => arg.shown :: argumentsShown rest

end

/-! The names in a tree are names, and a constant without accesses is no path. -/

def Root.Sound : Root → Prop
  | .slot s => NameParts (name s)
  | .constant _ | .target => True

mutual

def Tree.Sound : Tree → Prop
  | .const _ => True
  | .path root steps =>
    root.Sound name ∧ (steps = [] → ∀ v, root ≠ .constant v) ∧ StepsSound steps
  | .unary _ operand => operand.Sound
  | .binary _ left right => left.Sound ∧ right.Sound

def TreeStep.Sound : TreeStep → Prop
  | .field name => NameParts name
  | .index _ | .key _ => True
  | .call name args => NameParts name ∧ ArgumentsSound args

def StepsSound : List TreeStep → Prop
  | [] => True
  | step :: rest => step.Sound ∧ StepsSound rest

def ArgumentsSound : List Tree → Prop
  | [] => True
  | arg :: rest => arg.Sound ∧ ArgumentsSound rest

end

end Shown

def Root.values : Root → List Value
  | .constant v => [v]
  | .slot _ | .target => []

mutual

/-- The values that a tree holds. -/
def Tree.values : Tree → List Value
  | .const v => [v]
  | .path root steps => root.values ++ stepsValues steps
  | .unary _ operand => operand.values
  | .binary _ left right => left.values ++ right.values

def TreeStep.values : TreeStep → List Value
  | .call _ args => argumentsValues args
  | .field _ | .index _ | .key _ => []

def stepsValues : List TreeStep → List Value
  | [] => []
  | step :: rest => step.values ++ stepsValues rest

def argumentsValues : List Tree → List Value
  | [] => []
  | arg :: rest => arg.values ++ argumentsValues rest

end

theorem argumentsShown_eq_map (name : SlotId → String) (args : List Tree) :
    argumentsShown name args = args.map (Tree.shown name) := by
  induction args with
  | nil => rfl
  | cons arg rest ih => simp [argumentsShown, ih]

/-- Neither a name nor a path goes on here, nor does a call begin. -/
def TreeEnds (rest : List Char) : Prop :=
  ∀ c ∈ rest.head?, Text.isNamePart c = false ∧ c ∉ ['.', '[', '(']

theorem treeEnds_nil : TreeEnds [] :=
  nofun

theorem treeEnds_cons {c : Char} (hc : Text.isNamePart c = false ∧ c ∉ ['.', '[', '('])
    (rest : List Char) : TreeEnds (c :: rest) := by
  rintro d ⟨⟩
  exact hc

theorem TreeEnds.stops {rest : List Char} (h : TreeEnds rest) : Stops rest :=
  fun c hc => (h c hc).1

section Roots

variable {name name' : SlotId → String} {r s : List Char} (hr : Stops r) (hs : Stops s)
include hr hs

theorem slotShown_append_inj {a b : SlotId} (ha : NameParts (name a)) (hb : NameParts (name' b))
    (h : slotShown name a ++ r = slotShown name' b ++ s) :
    a = b ∧ name a = name' b ∧ r = s := by
  have hcolon (rest : List Char) : Stops (':' :: rest) := Text.stops_cons (by decide) rest
  simp only [slotShown, List.cons_append, List.append_assoc, List.cons.injEq, true_and] at h
  obtain ⟨hab, hrest⟩ := Text.natText_append_inj (hcolon _) (hcolon _) h
  obtain ⟨hname, hrs⟩ := Text.name_append_inj hr hs ha hb (List.cons.inj hrest).2
  exact ⟨hab, hname, hrs⟩

theorem Root.shown_append_inj {a b : Root} (ha : a.Sound name) (hb : b.Sound name')
    (hav : ∀ v ∈ a.values, v.Plain) (hbv : ∀ v ∈ b.values, v.Plain)
    (h : a.shown name ++ r = b.shown name' ++ s) : a = b ∧ r = s := by
  cases a with
  | slot a =>
    cases b with
    | slot b =>
      obtain ⟨rfl, -, hrs⟩ := slotShown_append_inj hr hs ha hb h
      exact ⟨rfl, hrs⟩
    | constant w => exact absurd h.symm (Value.listing_ne (by decide) w _ _)
    | target => simp [Root.shown, slotShown] at h
  | constant v =>
    cases b with
    | slot b => exact absurd h (Value.listing_ne (by decide) v _ _)
    | constant w =>
      obtain ⟨rfl, hrs⟩ := Value.listing_append_inj (hav v (by simp [Root.values]))
        (hbv w (by simp [Root.values])) h
      exact ⟨rfl, hrs⟩
    | target => exact absurd h (Value.listing_ne (by decide) v _ _)
  | target =>
    cases b with
    | slot b => simp [Root.shown, slotShown] at h
    | constant w => exact absurd h.symm (Value.listing_ne (by decide) w _ _)
    | target => exact ⟨rfl, List.append_cancel_left h⟩

end Roots

/-! A text begins differently with each kind of root and of tree. -/

def Root.firsts : List Char :=
  '$' :: 't' :: Value.firsts

theorem Root.shown_cons (name : SlotId → String) (root : Root) :
    ∃ c rest, c ∈ Root.firsts ∧ root.shown name = c :: rest := by
  cases root with
  | constant v =>
    obtain ⟨c, rest, hc, heq⟩ := v.listing_cons
    exact ⟨c, rest, by simp [Root.firsts, hc], heq⟩
  | slot a => exact ⟨'$', _, by decide, rfl⟩
  | target => exact ⟨'t', _, by decide, rfl⟩

def Tree.firsts : Tree → List Char
  | .const _ | .path .. => Root.firsts
  | .unary .. => ['!', '-']
  | .binary .. => ['(']

theorem Tree.shown_cons (name : SlotId → String) (t : Tree) :
    ∃ c rest, c ∈ t.firsts ∧ t.shown name = c :: rest := by
  cases t with
  | const v => exact Root.shown_cons name (.constant v)
  | path root steps =>
    obtain ⟨c, rest, hc, heq⟩ := root.shown_cons name
    exact ⟨c, rest ++ stepsShown name steps, hc, by rw [Tree.shown, heq, List.cons_append]⟩
  | unary op operand =>
    cases op with
    | not => exact ⟨'!', operand.shown name, by simp [Tree.firsts], rfl⟩
    | neg => exact ⟨'-', operand.shown name, by simp [Tree.firsts], rfl⟩
  | binary op left right => exact ⟨'(', _, by simp [Tree.firsts], rfl⟩

theorem Tree.firsts_subset (t : Tree) : t.firsts ⊆ '!' :: '-' :: '(' :: Root.firsts := by
  intro c hc
  cases t with
  | unary op operand => exact List.mem_append_left ('(' :: Root.firsts) hc
  | _ => simp_all [Tree.firsts]

theorem Tree.shown_ne {c : Char} (hc : c ∉ '!' :: '-' :: '(' :: Root.firsts)
    (name : SlotId → String) (t : Tree) (r s : List Char) : t.shown name ++ r ≠ c :: s := by
  obtain ⟨d, rest, hd, heq⟩ := t.shown_cons name
  rw [heq]
  rintro h
  exact hc ((List.cons.inj h).1 ▸ t.firsts_subset hd)

theorem exists_first {name name' : SlotId → String} {t t' : Tree} {r s : List Char}
    (h : t.shown name ++ r = t'.shown name' ++ s) : ∃ c ∈ t.firsts, c ∈ t'.firsts := by
  obtain ⟨c, rest, hc, heq⟩ := t.shown_cons name
  obtain ⟨d, rest', hd, heq'⟩ := t'.shown_cons name'
  rw [heq, heq'] at h
  exact ⟨c, hc, (List.cons.inj h).1 ▸ hd⟩

/-- After an access comes another one, or the path ends. -/
def StepEnds (rest : List Char) : Prop :=
  ∀ c ∈ rest.head?, Text.isNamePart c = false ∧ c ≠ '('

theorem stepEnds_stepsShown (name : SlotId → String) (steps : List TreeStep) {rest : List Char}
    (h : TreeEnds rest) : StepEnds (stepsShown name steps ++ rest) := by
  intro c hc
  cases steps with
  | nil =>
    obtain ⟨hname, hmem⟩ := h c hc
    exact ⟨hname, fun heq => hmem (by simp [heq])⟩
  | cons step steps =>
    cases step <;> cases hc <;> exact ⟨by decide, by decide⟩

theorem StepEnds.stops {rest : List Char} (h : StepEnds rest) : Stops rest :=
  fun c hc => (h c hc).1

theorem TreeEnds.ne_stepsShown {rest : List Char} (h : TreeEnds rest) (name : SlotId → String)
    (step : TreeStep) (steps : List TreeStep) (rest' : List Char) :
    rest ≠ stepsShown name (step :: steps) ++ rest' := by
  rintro rfl
  cases step
  all_goals exact (h _ rfl).2 (by simp)

theorem TreeEnds.eq_nil {rest : List Char} (h : TreeEnds rest) {name : SlotId → String}
    {steps : List TreeStep} {rest' : List Char} (heq : rest = stepsShown name steps ++ rest') :
    steps = [] := by
  cases steps with
  | nil => rfl
  | cons step steps => exact absurd heq (h.ne_stepsShown name step steps rest')

theorem unarySymbol_append_inj {a b : Expr.UnaryOp} {r s : List Char}
    (h : a.symbol.toList ++ r = b.symbol.toList ++ s) : a = b ∧ r = s := by
  cases a <;> cases b <;> simp_all [Expr.UnaryOp.symbol]

def binaryOps : List Expr.BinaryOp :=
  [.add, .sub, .mul, .div, .mod, .eq, .ne, .lt, .le, .gt, .ge, .and, .or]

theorem mem_binaryOps (op : Expr.BinaryOp) : op ∈ binaryOps := by
  cases op <;> decide

theorem binarySymbol_append_inj {a b : Expr.BinaryOp} {r s : List Char}
    (h : a.symbol.toList ++ ' ' :: r = b.symbol.toList ++ ' ' :: s) : a = b ∧ r = s := by
  have hblank : ∀ a ∈ binaryOps, a.symbol.toList.all (· != ' ') = true := by decide
  have hsame : ∀ a ∈ binaryOps, ∀ b ∈ binaryOps, a.symbol.toList = b.symbol.toList → a = b := by
    decide
  have hstop (rest : List Char) : ∀ c ∈ (' ' :: rest).head?, (c != ' ') = false := by
    rintro c ⟨⟩
    rfl
  obtain ⟨hab, hrs⟩ := Text.takeWhile_append_inj (List.all_eq_true.mp (hblank a (mem_binaryOps a)))
    (List.all_eq_true.mp (hblank b (mem_binaryOps b))) (hstop r) (hstop s) h
  exact ⟨hsame a (mem_binaryOps a) b (mem_binaryOps b) hab, (List.cons.inj hrs).2⟩

section Trees

variable {name name' : SlotId → String}

theorem argumentsValues_subset {args : List Tree} {arg : Tree} (h : arg ∈ args) :
    arg.values ⊆ argumentsValues args := by
  induction args with
  | nil => cases h
  | cons next args ih =>
    intro v hv
    obtain rfl | h := List.mem_cons.mp h
    · exact List.mem_append_left _ hv
    · exact List.mem_append_right _ (ih h hv)

theorem ArgumentsSound.of_mem {args : List Tree} (h : ArgumentsSound name args) {arg : Tree}
    (harg : arg ∈ args) : arg.Sound name := by
  induction args with
  | nil => cases harg
  | cons next args ih =>
    obtain rfl | harg := List.mem_cons.mp harg
    · exact h.1
    · exact ih h.2 harg

/-- What stands at the start of a path can be told from its accesses. -/
theorem rooted_append_inj {root root' : Root} (hroot : root.Sound name) (hroot' : root'.Sound name')
    (hv : ∀ v ∈ root.values, v.Plain) (hv' : ∀ v ∈ root'.values, v.Plain)
    {steps steps' : List TreeStep} {r s : List Char} (hr : TreeEnds r) (hs : TreeEnds s)
    (h : root.shown name ++ (stepsShown name steps ++ r) =
      root'.shown name' ++ (stepsShown name' steps' ++ s)) :
    root = root' ∧ stepsShown name steps ++ r = stepsShown name' steps' ++ s :=
  Root.shown_append_inj (stepEnds_stepsShown name steps hr).stops
    (stepEnds_stepsShown name' steps' hs).stops hroot hroot' hv hv' h

/-- A constant by itself is no path. -/
theorem const_ne_path {v : Value} (hv : v.Plain) {root : Root} {steps : List TreeStep}
    (hpath : (Tree.path root steps).Sound name')
    (hvalues : ∀ v ∈ (Tree.path root steps).values, v.Plain) {r s : List Char} (hr : TreeEnds r)
    (hs : TreeEnds s) :
    (Tree.const v).shown name ++ r ≠ (Tree.path root steps).shown name' ++ s := by
  intro h
  rw [Tree.shown, Tree.shown, List.append_assoc] at h
  have hconstant : (Root.constant v).Sound name := trivial
  have hroot : (Root.constant v).shown name ++ (stepsShown name [] ++ r) =
      root.shown name' ++ (stepsShown name' steps ++ s) := h
  obtain ⟨rfl, hrest⟩ := rooted_append_inj hconstant hpath.1 (by simpa [Root.values] using hv)
    (fun w hw => hvalues w (List.mem_append_left _ hw)) hr hs hroot
  exact hpath.2.1 (hr.eq_nil hrest) v rfl

mutual

theorem Tree.shown_append_inj (t t' : Tree) (ht : t.Sound name) (ht' : t'.Sound name')
    (hv : ∀ v ∈ t.values, v.Plain) (hv' : ∀ v ∈ t'.values, v.Plain) {r s : List Char}
    (hr : TreeEnds r) (hs : TreeEnds s) (h : t.shown name ++ r = t'.shown name' ++ s) :
    t = t' ∧ r = s := by
  obtain ⟨c, hc, hc'⟩ := exists_first h
  have hunary : ∀ c ∈ ['!', '-'], c ∉ Root.firsts :=
    List.forall_mem_cons.mpr ⟨by decide, List.forall_mem_singleton.mpr (by decide)⟩
  have hbinary : '(' ∉ Root.firsts ∧ '(' ∉ ['!', '-'] := by decide
  match t with
  | .const v =>
    have hplain : v.Plain := hv v (by simp [Tree.values])
    cases t' with
    | const w =>
      obtain ⟨rfl, hrs⟩ := Value.listing_append_inj hplain (hv' w (by simp [Tree.values])) h
      exact ⟨rfl, hrs⟩
    | path root steps => exact absurd h (const_ne_path hplain ht' hv' hr hs)
    | unary op operand => exact absurd hc (hunary c hc')
    | binary op left right => exact absurd (List.mem_singleton.mp hc' ▸ hc) hbinary.1
  | .path root steps =>
    cases t' with
    | const w =>
      exact absurd h.symm (const_ne_path (hv' w (by simp [Tree.values])) ht hv hs hr)
    | path root' steps' =>
      obtain ⟨hroot, hsteps⟩ := List.forall_mem_append.mp hv
      obtain ⟨hroot', hsteps'⟩ := List.forall_mem_append.mp hv'
      rw [Tree.shown, Tree.shown, List.append_assoc, List.append_assoc] at h
      obtain ⟨rfl, hrest⟩ := rooted_append_inj ht.1 ht'.1 hroot hroot' hr hs h
      obtain ⟨rfl, hrs⟩ := stepsShown_append_inj steps steps' ht.2.2 ht'.2.2 hsteps hsteps' hr hs
        hrest
      exact ⟨rfl, hrs⟩
    | unary op operand => exact absurd hc (hunary c hc')
    | binary op left right => exact absurd (List.mem_singleton.mp hc' ▸ hc) hbinary.1
  | .unary op operand =>
    cases t' with
    | const w => exact absurd hc' (hunary c hc)
    | path root steps => exact absurd hc' (hunary c hc)
    | unary op' operand' =>
      rw [Tree.shown, Tree.shown, List.append_assoc, List.append_assoc] at h
      obtain ⟨rfl, hrest⟩ := unarySymbol_append_inj h
      obtain ⟨rfl, hrs⟩ := Tree.shown_append_inj operand operand' ht ht' hv hv' hr hs hrest
      exact ⟨rfl, hrs⟩
    | binary op' left right => exact absurd (List.mem_singleton.mp hc' ▸ hc) hbinary.2
  | .binary op left right =>
    cases t' with
    | const w => exact absurd (List.mem_singleton.mp hc ▸ hc') hbinary.1
    | path root steps => exact absurd (List.mem_singleton.mp hc ▸ hc') hbinary.1
    | unary op' operand => exact absurd (List.mem_singleton.mp hc ▸ hc') hbinary.2
    | binary op' left' right' =>
      obtain ⟨hleft, hright⟩ := List.forall_mem_append.mp hv
      obtain ⟨hleft', hright'⟩ := List.forall_mem_append.mp hv'
      have hblank (rest : List Char) : TreeEnds (' ' :: rest) := treeEnds_cons (by decide) rest
      have hclose (rest : List Char) : TreeEnds (')' :: rest) := treeEnds_cons (by decide) rest
      simp only [Tree.shown, List.cons_append, List.append_assoc, List.nil_append, List.cons.injEq,
        true_and] at h
      obtain ⟨rfl, hop⟩ := Tree.shown_append_inj left left' ht.1 ht'.1 hleft hleft' (hblank _)
        (hblank _) h
      obtain ⟨rfl, hrest⟩ := binarySymbol_append_inj (List.cons.inj hop).2
      obtain ⟨rfl, hrs⟩ := Tree.shown_append_inj right right' ht.2 ht'.2 hright hright' (hclose r)
        (hclose s) hrest
      exact ⟨rfl, (List.cons.inj hrs).2⟩

theorem TreeStep.shown_append_inj (a b : TreeStep) (ha : a.Sound name) (hb : b.Sound name')
    (hv : ∀ v ∈ a.values, v.Plain) (hv' : ∀ v ∈ b.values, v.Plain) {r s : List Char}
    (hr : StepEnds r) (hs : StepEnds s) (h : a.shown name ++ r = b.shown name' ++ s) :
    a = b ∧ r = s := by
  have hclose (rest : List Char) : Stops (']' :: rest) := Text.stops_cons (by decide) rest
  have hopen (rest : List Char) : Stops ('(' :: rest) := Text.stops_cons (by decide) rest
  match a with
  | .field x =>
    cases b with
    | field y =>
      obtain ⟨rfl, hrs⟩ := Text.name_append_inj hr.stops hs.stops ha hb (List.cons.inj h).2
      exact ⟨rfl, hrs⟩
    | call y args =>
      simp only [TreeStep.shown, List.cons_append, List.append_assoc, List.cons.injEq,
        true_and] at h
      obtain ⟨-, rfl⟩ := Text.name_append_inj hr.stops (hopen _) ha hb.1 h
      exact absurd rfl (hr _ rfl).2
    | _ => exact absurd (List.cons.inj h).1 (by decide)
  | .index i =>
    cases b with
    | index j =>
      simp only [TreeStep.shown, List.cons_append, List.append_assoc, List.nil_append,
        List.cons.injEq, true_and] at h
      obtain ⟨rfl, hrest⟩ := Text.intText_append_inj (hclose r) (hclose s) h
      exact ⟨rfl, (List.cons.inj hrest).2⟩
    | key k =>
      rw [TreeStep.shown, TreeStep.shown, List.cons_append, List.cons_append, List.append_assoc,
        List.append_assoc] at h
      exact absurd (List.cons.inj h).2 (Text.intText_ne_quote i k _ _)
    | _ => exact absurd (List.cons.inj h).1 (by decide)
  | .key k =>
    cases b with
    | index j =>
      rw [TreeStep.shown, TreeStep.shown, List.cons_append, List.cons_append, List.append_assoc,
        List.append_assoc] at h
      exact absurd (List.cons.inj h).2.symm (Text.intText_ne_quote j k _ _)
    | key l =>
      simp only [TreeStep.shown, List.cons_append, List.append_assoc, List.nil_append,
        List.cons.injEq, true_and] at h
      obtain ⟨rfl, hrest⟩ := Text.quote_append_inj h
      exact ⟨rfl, (List.cons.inj hrest).2⟩
    | _ => exact absurd (List.cons.inj h).1 (by decide)
  | .call x args =>
    cases b with
    | field y =>
      simp only [TreeStep.shown, List.cons_append, List.append_assoc, List.cons.injEq,
        true_and] at h
      obtain ⟨-, rfl⟩ := Text.name_append_inj (hopen _) hs.stops ha.1 hb h
      exact absurd rfl (hs _ rfl).2
    | call y args' =>
      simp only [TreeStep.shown, List.cons_append, List.append_assoc, List.nil_append,
        List.cons.injEq, true_and, argumentsShown_eq_map] at h
      obtain ⟨rfl, hrest⟩ := Text.name_append_inj (hopen _) (hopen _) ha.1 hb.1 h
      obtain ⟨rfl, hrs⟩ := Text.commas_append_inj TreeEnds (treeEnds_cons (by decide))
        (treeEnds_cons (by decide)) (by decide) (fun t _ => t.shown_ne (by decide) name)
        (fun t _ => t.shown_ne (by decide) name')
        (fun t ht t' ht' r s hr hs h => argumentShown_append_inj args t ht t' (ha.2.of_mem ht)
          (hb.2.of_mem ht') (fun v hmem => hv v (argumentsValues_subset ht hmem))
          (fun v hmem => hv' v (argumentsValues_subset ht' hmem)) hr hs h)
        (List.cons.inj hrest).2
      exact ⟨rfl, hrs⟩
    | _ => exact absurd (List.cons.inj h).1 (by decide)

theorem stepsShown_append_inj (as bs : List TreeStep) (ha : StepsSound name as)
    (hb : StepsSound name' bs) (hv : ∀ v ∈ stepsValues as, v.Plain)
    (hv' : ∀ v ∈ stepsValues bs, v.Plain) {r s : List Char} (hr : TreeEnds r) (hs : TreeEnds s)
    (h : stepsShown name as ++ r = stepsShown name' bs ++ s) : as = bs ∧ r = s := by
  match as with
  | [] =>
    obtain rfl := hr.eq_nil h
    exact ⟨rfl, h⟩
  | a :: as =>
    cases bs with
    | nil => cases hs.eq_nil h.symm
    | cons b bs =>
      obtain ⟨hfirst, hrest⟩ := List.forall_mem_append.mp hv
      obtain ⟨hfirst', hrest'⟩ := List.forall_mem_append.mp hv'
      rw [stepsShown, stepsShown, List.append_assoc, List.append_assoc] at h
      obtain ⟨rfl, hmore⟩ := TreeStep.shown_append_inj a b ha.1 hb.1 hfirst hfirst'
        (stepEnds_stepsShown name as hr) (stepEnds_stepsShown name' bs hs) h
      obtain ⟨rfl, hrs⟩ := stepsShown_append_inj as bs ha.2 hb.2 hrest hrest' hr hs hmore
      exact ⟨rfl, hrs⟩

theorem argumentShown_append_inj (args : List Tree) (a : Tree) (hmem : a ∈ args) (b : Tree)
    (ha : a.Sound name) (hb : b.Sound name') (hv : ∀ v ∈ a.values, v.Plain)
    (hv' : ∀ v ∈ b.values, v.Plain) {r s : List Char} (hr : TreeEnds r) (hs : TreeEnds s)
    (h : a.shown name ++ r = b.shown name' ++ s) : a = b ∧ r = s := by
  match args with
  | [] => cases hmem
  | arg :: args =>
    by_cases heq : a = arg
    · rw [heq] at ha hv h ⊢
      exact Tree.shown_append_inj arg b ha hb hv hv' hr hs h
    · have hrest : a ∈ args := (List.mem_cons.mp hmem).resolve_left heq
      exact argumentShown_append_inj args a hrest b ha hb hv hv' hr hs h

end

/-! All of it stands on one line. -/

theorem solid_slotShown {slot : SlotId} (h : NameParts (name slot)) :
    Solid (slotShown name slot) := by
  refine Text.Solid.append (a := '$' :: (toString slot).toList) ?_
    (Text.solid_of_forall (by simp) ?_)
  · rw [List.mem_cons, not_or]
    exact ⟨by decide, Text.line_natText slot⟩
  · exact List.forall_mem_cons.mpr ⟨by decide, h.not_isBlank⟩

theorem Root.solid {root : Root} (h : root.Sound name) (hv : ∀ v ∈ root.values, v.Plain) :
    Solid (root.shown name) := by
  cases root with
  | slot s => exact solid_slotShown h
  | constant v => exact Value.solid_listing (hv v (by simp [Root.values]))
  | target => exact Text.solid_concat (a := ['t', 'h', 'i']) (by decide) (by decide)

mutual

theorem Tree.solid (t : Tree) (h : t.Sound name) (hv : ∀ v ∈ t.values, v.Plain) :
    Solid (t.shown name) := by
  match t with
  | .const v => exact Value.solid_listing (hv v (by simp [Tree.values]))
  | .path root steps =>
    obtain ⟨hroot, hsteps⟩ := List.forall_mem_append.mp hv
    exact stepsSolid steps h.2.2 hsteps (root.solid h.1 hroot)
  | .unary op operand =>
    refine Text.Solid.append ?_ (Tree.solid operand h hv)
    cases op <;> decide
  | .binary op left right =>
    obtain ⟨hleft, hright⟩ := List.forall_mem_append.mp hv
    have hop : ∀ op ∈ binaryOps, '\n' ∉ op.symbol.toList := by decide
    refine Text.Solid.append (a := '(' :: left.shown name) ?_ (Text.Solid.append (a := [' ']) ?_ ?_)
    · simp [(Tree.solid left h.1 hleft).line]
    · decide
    · refine Text.Solid.append (hop op (mem_binaryOps op)) (Text.Solid.append (a := [' ']) ?_ ?_)
      · decide
      · exact Text.solid_concat (Tree.solid right h.2 hright).line (by decide)

theorem TreeStep.solid (step : TreeStep) (h : step.Sound name) (hv : ∀ v ∈ step.values, v.Plain) :
    Solid (step.shown name) := by
  match step with
  | .field x =>
    refine Text.solid_of_forall (by simp [TreeStep.shown]) ?_
    exact List.forall_mem_cons.mpr ⟨by decide, h.not_isBlank⟩
  | .index i =>
    rw [TreeStep.shown, ← List.cons_append]
    exact Text.solid_concat (by simp [Text.line_intText]) (by decide)
  | .key k =>
    rw [TreeStep.shown, ← List.cons_append]
    exact Text.solid_concat (by simp [(Text.solid_quote k).line]) (by decide)
  | .call x args =>
    have hargs := Text.line_commas (lineArguments args h.2 hv)
    refine Text.Solid.append (a := '.' :: x.toList) (by simp [h.1.line]) ?_
    rw [← List.cons_append]
    exact Text.solid_concat (by simp [hargs]) (by decide)

theorem stepsSolid (steps : List TreeStep) (h : StepsSound name steps)
    (hv : ∀ v ∈ stepsValues steps, v.Plain) {cs : List Char} (hcs : Solid cs) :
    Solid (cs ++ stepsShown name steps) := by
  match steps with
  | [] => simpa [stepsShown] using hcs
  | step :: rest =>
    obtain ⟨hstep, hrest⟩ := List.forall_mem_append.mp hv
    rw [stepsShown, ← List.append_assoc]
    exact stepsSolid rest h.2 hrest (.append hcs.line (TreeStep.solid step h.1 hstep))

theorem lineArguments (args : List Tree) (h : ArgumentsSound name args)
    (hv : ∀ v ∈ argumentsValues args, v.Plain) :
    ∀ text ∈ argumentsShown name args, '\n' ∉ text := by
  match args with
  | [] => exact List.forall_mem_nil _
  | arg :: rest =>
    obtain ⟨harg, hrest⟩ := List.forall_mem_append.mp hv
    exact List.forall_mem_cons.mpr ⟨(Tree.solid arg h.1 harg).line, lineArguments rest h.2 hrest⟩

end

end Trees

end TemplateEngine

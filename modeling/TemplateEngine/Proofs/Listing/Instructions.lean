import TemplateEngine.Proofs.Listing.Forms

/-! What an instruction shows tells its form, but for the slot in which a loop looks ahead. The
names of the slots that it assigns are told as well. -/
namespace TemplateEngine

open TemplateEngine.Text (NameParts Stops Solid commas)

/-- As simple an operand as its tree allows. -/
def OperandForm.Simplest : OperandForm → Prop
  | .constant _ | .slot _ => True
  | .path root steps => steps = [] → root = .target
  | .expr t => (∀ v, t ≠ .const v) ∧ ∀ root steps, t ≠ .path root steps

section Sound

variable (name : SlotId → String)

/-- The names in an operand are names, and the text of each value tells the value. -/
structure OperandForm.Sound (o : OperandForm) : Prop where
  simplest : o.Simplest
  names : o.tree.Sound name
  values : ∀ v ∈ o.tree.values, v.Plain

def CalleeForm.Sound : CalleeForm → Prop
  | .static name | .named name => NameParts name
  | .dynamic slot => NameParts (name slot)

structure ArgumentForm.Sound (arg : ArgumentForm) : Prop where
  param : NameParts arg.name
  value : arg.value.Sound name

def ActionForm.Sound : ActionForm → Prop
  | .literal _ => True
  | .variable source => source.Sound name
  | .set target value => NameParts (name target) ∧ value.Sound name
  | .call callee args _ => callee.Sound name ∧ ∀ arg ∈ args, arg.Sound name
  | .exec operation arg => NameParts operation ∧ ∀ o ∈ arg, o.Sound name
  | .debug value _ => ∀ o ∈ value, o.Sound name

/-- The companion of a loop is known from the name of its variable. -/
def InstrForm.Sound : InstrForm → Prop
  | .action a => a.Sound name
  | .branch _ cond _ _ => cond.Sound name
  | .loop container entry next _ =>
    container.Sound name ∧ NameParts (name entry) ∧ name next = name entry ++ "_next"
  | .otherwise | .endLoop => True

end Sound

def ActionForm.target? : ActionForm → Option SlotId
  | .set target _ => some target
  | .literal _ | .variable _ | .call .. | .exec .. | .debug .. => none

/-- The slot whose name a program gives at an instruction. -/
def InstrForm.target? : InstrForm → Option SlotId
  | .action a => a.target?
  | .loop _ entry _ _ => some entry
  | .branch .. | .otherwise | .endLoop => none

/-- The slot in which a loop looks ahead is not shown. -/
def InstrForm.withoutNext : InstrForm → InstrForm
  | .loop container entry _ stop => .loop container entry 0 stop
  | i => i

/-- What a listing tells of an instruction. -/
def InstrForm.told (name : SlotId → String) (i : InstrForm) : InstrForm × Option String :=
  (i.withoutNext, i.target?.map name)

/-! Numbers with leading zeros. -/

namespace Program

theorem toList_placeText (n : Nat) :
    ∃ k, (placeText n).toList = List.replicate k '0' ++ Nat.toDigits 10 n := by
  refine ⟨4 - (toString n).length, ?_⟩
  rw [placeText, String.toList_append, String.toList_ofList]
  exact congrArg _ Nat.toList_repr

theorem isDigit_placeText {n : Nat} : ∀ c ∈ (placeText n).toList, c.isDigit := by
  obtain ⟨k, hk⟩ := toList_placeText n
  intro c hc
  rw [hk] at hc
  obtain hc | hc := List.mem_append.mp hc
  · rw [List.eq_of_mem_replicate hc]
    rfl
  · exact Nat.isDigit_of_mem_toDigits (by decide) (by decide) hc

theorem value_placeText (n : Nat) : Nat.ofDigitChars 10 (placeText n).toList 0 = n := by
  obtain ⟨k, hk⟩ := toList_placeText n
  rw [hk, Nat.ofDigitChars_append, Nat.ofDigitChars_replicate_zero, Nat.mul_zero]
  exact Nat.ofDigitChars_ten_toDigits

theorem placeText_append_inj {m n : Nat} {r s : List Char} (hr : Stops r) (hs : Stops s)
    (h : (placeText m).toList ++ r = (placeText n).toList ++ s) : m = n ∧ r = s := by
  obtain ⟨hmn, hrs⟩ := Text.digits_append_inj hr hs isDigit_placeText isDigit_placeText h
  refine ⟨?_, hrs⟩
  rw [← value_placeText m, hmn, value_placeText]

theorem solid_placeText (n : Nat) : Solid (placeText n).toList := by
  refine Text.solid_of_forall ?_ fun c hc => ?_
  · obtain ⟨k, hk⟩ := toList_placeText n
    simp [hk, Nat.toDigits_ne_nil]
  · have hpart := Expr.isNamePart_of_isDigit (isDigit_placeText c hc)
    refine Bool.eq_false_iff.mpr fun hblank => ?_
    rw [Text.not_isNamePart_of_isBlank hblank] at hpart
    cases hpart

end Program

/-! Operands. -/

section Shown

variable {name name' : SlotId → String}

namespace OperandForm

theorem tree_inj {a b : OperandForm} (ha : a.Simplest) (hb : b.Simplest) (h : a.tree = b.tree) :
    a = b := by
  cases a <;> cases b <;> cases h <;> simp_all [Simplest]

/-- Only a constant is shown otherwise than in a larger expression. -/
theorem shown_eq {o : OperandForm} (h : ∀ v, o ≠ .constant v) :
    o.shown name = o.tree.shown name := by
  cases o with
  | constant v => exact absurd rfl (h v)
  | slot s => exact (List.append_nil _).symm
  | path root steps => rfl
  | expr t => rfl

theorem shown_constant (v : Value) :
    (constant v).shown name = "const ".toList ++ v.listing.toList :=
  rfl

def firsts : List Char :=
  'c' :: '!' :: '-' :: '(' :: Root.firsts

theorem shown_ne {c : Char} (hc : c ∉ firsts) (o : OperandForm) (r s : List Char) :
    o.shown name ++ r ≠ c :: s := by
  obtain ⟨hconst, htree⟩ := not_or.mp (mt List.mem_cons.mpr hc)
  by_cases h : ∃ v, o = constant v
  · obtain ⟨v, rfl⟩ := h
    exact fun heq => hconst (List.cons.inj heq).1.symm
  · rw [shown_eq (not_exists.mp h)]
    exact Tree.shown_ne htree name o.tree r s

theorem constant_ne {v : Value} {o : OperandForm} (h : ∀ v, o ≠ .constant v) (r s : List Char) :
    (constant v).shown name ++ r ≠ o.shown name' ++ s := by
  rw [shown_eq h]
  exact (Tree.shown_ne (by decide) name' o.tree s _).symm

theorem shown_append_inj {a b : OperandForm} (ha : a.Sound name) (hb : b.Sound name')
    {r s : List Char} (hr : TreeEnds r) (hs : TreeEnds s)
    (h : a.shown name ++ r = b.shown name' ++ s) : a = b ∧ r = s := by
  by_cases hconst : ∃ v, a = constant v
  · obtain ⟨v, rfl⟩ := hconst
    by_cases hconst' : ∃ w, b = constant w
    · obtain ⟨w, rfl⟩ := hconst'
      rw [shown_constant, shown_constant, List.append_assoc, List.append_assoc] at h
      obtain ⟨rfl, hrs⟩ := Value.listing_append_inj (ha.values v (by simp [tree, Tree.values]))
        (hb.values w (by simp [tree, Tree.values])) (List.append_cancel_left h)
      exact ⟨rfl, hrs⟩
    · exact absurd h (constant_ne (not_exists.mp hconst') r s)
  · by_cases hconst' : ∃ w, b = constant w
    · obtain ⟨w, rfl⟩ := hconst'
      exact absurd h.symm (constant_ne (not_exists.mp hconst) s r)
    · rw [shown_eq (not_exists.mp hconst), shown_eq (not_exists.mp hconst')] at h
      obtain ⟨htree, hrs⟩ :=
        Tree.shown_append_inj a.tree b.tree ha.names hb.names ha.values hb.values hr hs h
      exact ⟨tree_inj ha.simplest hb.simplest htree, hrs⟩

theorem solid {o : OperandForm} (h : o.Sound name) : Solid (o.shown name) := by
  by_cases hconst : ∃ v, o = constant v
  · obtain ⟨v, rfl⟩ := hconst
    have hvalue := Value.solid_listing (h.values v (by simp [tree, Tree.values]))
    exact .append (a := "const ".toList) (by decide) hvalue
  · rw [shown_eq (not_exists.mp hconst)]
    exact Tree.solid o.tree h.names h.values

/-! An operand that may be missing. -/

theorem solid_optional {a : Option OperandForm} (ha : ∀ o ∈ a, o.Sound name) :
    (a.map (shown name)).getD [] = [] ∨ Solid ((a.map (shown name)).getD []) := by
  cases a with
  | none => exact .inl rfl
  | some o => exact .inr (solid (ha o rfl))

theorem optional_append_inj {a b : Option OperandForm} (ha : ∀ o ∈ a, o.Sound name)
    (hb : ∀ o ∈ b, o.Sound name') {r s : List Char} (hr : ∀ c ∈ r.head?, c ∈ [' ', ')'])
    (hs : ∀ c ∈ s.head?, c ∈ [' ', ')'])
    (h : (a.map (shown name)).getD [] ++ r = (b.map (shown name')).getD [] ++ s) :
    a = b ∧ r = s := by
  have hends {r : List Char} (hr : ∀ c ∈ r.head?, c ∈ [' ', ')']) : TreeEnds r := by
    have hclosers : ∀ c ∈ [' ', ')'], Text.isNamePart c = false ∧ c ∉ ['.', '[', '('] :=
      List.forall_mem_cons.mpr ⟨by decide, List.forall_mem_singleton.mpr (by decide)⟩
    exact fun c hc => hclosers c (hr c hc)
  have hmissing {name : SlotId → String} {r : List Char} (hr : ∀ c ∈ r.head?, c ∈ [' ', ')'])
      (o : OperandForm) (s : List Char) : r ≠ o.shown name ++ s := by
    have hclosers : ∀ c ∈ [' ', ')'], c ∉ firsts :=
      List.forall_mem_cons.mpr ⟨by decide, List.forall_mem_singleton.mpr (by decide)⟩
    cases r with
    | nil =>
      intro h
      have hnil := (List.append_eq_nil_iff.mp h.symm).1
      have hne : o.shown name ++ [' '] ≠ [' '] := o.shown_ne (by decide) [' '] []
      exact hne (by rw [hnil]; rfl)
    | cons c r => exact (o.shown_ne (hclosers c (hr c rfl)) s r).symm
  cases a with
  | none =>
    cases b with
    | none => exact ⟨rfl, h⟩
    | some b => exact absurd h (hmissing hr b s)
  | some a =>
    cases b with
    | none => exact absurd h.symm (hmissing hs a r)
    | some b =>
      obtain ⟨rfl, hrs⟩ := shown_append_inj (ha a rfl) (hb b rfl) (hends hr) (hends hs) h
      exact ⟨rfl, hrs⟩

end OperandForm

theorem CalleeForm.shown_append_inj {a b : CalleeForm} (ha : a.Sound name) (hb : b.Sound name')
    {r s : List Char} (hr : Stops r) (hs : Stops s)
    (h : a.shown name ++ r = b.shown name' ++ s) : a = b ∧ r = s := by
  match a with
  | .static x =>
    cases b with
    | static y =>
      simp only [shown, List.append_assoc] at h
      obtain ⟨rfl, hrs⟩ := Text.name_append_inj hr hs ha hb (List.append_cancel_left h)
      exact ⟨rfl, hrs⟩
    | _ => exact absurd (List.cons.inj h).1 (by decide)
  | .named x =>
    cases b with
    | named y =>
      simp only [shown, List.append_assoc] at h
      obtain ⟨rfl, hrs⟩ := Text.name_append_inj hr hs ha hb (List.append_cancel_left h)
      exact ⟨rfl, hrs⟩
    | _ => exact absurd (List.cons.inj h).1 (by decide)
  | .dynamic x =>
    cases b with
    | dynamic y =>
      simp only [shown, List.append_assoc] at h
      obtain ⟨rfl, -, hrs⟩ := slotShown_append_inj hr hs ha hb (List.append_cancel_left h)
      exact ⟨rfl, hrs⟩
    | _ => exact absurd (List.cons.inj h).1 (by decide)

theorem stops_placeShown (place : Option SlotId) (r : List Char) :
    Stops (placeShown place ++ '=' :: r) := by
  cases place with
  | none => exact Text.stops_cons (by decide) r
  | some slot => exact Text.stops_cons (by decide) _

theorem placeShown_append_inj {a b : Option SlotId} {r s : List Char}
    (h : placeShown a ++ '=' :: r = placeShown b ++ '=' :: s) : a = b ∧ r = s := by
  have hequals (rest : List Char) : Stops ('=' :: rest) := Text.stops_cons (by decide) rest
  cases a with
  | none =>
    cases b with
    | none => exact ⟨rfl, (List.cons.inj h).2⟩
    | some b => exact absurd (List.cons.inj h).1 (by decide)
  | some a =>
    cases b with
    | none => exact absurd (List.cons.inj h).1 (by decide)
    | some b =>
      obtain ⟨rfl, hrs⟩ := Text.natText_append_inj (hequals r) (hequals s) (List.cons.inj h).2
      exact ⟨rfl, (List.cons.inj hrs).2⟩

theorem ArgumentForm.shown_append_inj {a b : ArgumentForm} (ha : a.Sound name) (hb : b.Sound name')
    {r s : List Char} (hr : TreeEnds r) (hs : TreeEnds s)
    (h : a.shown name ++ r = b.shown name' ++ s) : a = b ∧ r = s := by
  simp only [shown, List.append_assoc, List.cons_append] at h
  obtain ⟨hparam, hplace⟩ := Text.name_append_inj (stops_placeShown a.slot _)
    (stops_placeShown b.slot _) ha.param hb.param h
  obtain ⟨hslot, hrest⟩ := placeShown_append_inj hplace
  obtain ⟨hvalue, hrs⟩ := OperandForm.shown_append_inj ha.value hb.value hr hs hrest
  cases a
  cases b
  subst hparam hslot hvalue
  exact ⟨rfl, hrs⟩

theorem ArgumentForm.shown_ne_close {a : ArgumentForm} (ha : a.Sound name) (r s : List Char) :
    a.shown name ++ r ≠ ')' :: s := by
  simp only [shown, List.append_assoc, List.cons_append]
  refine ha.param.append_ne (by decide) (fun _ => ?_) s
  cases a.slot <;> simp [placeShown]

theorem arguments_append_inj {as bs : List ArgumentForm} (has : ∀ a ∈ as, a.Sound name)
    (hbs : ∀ b ∈ bs, b.Sound name') {r s : List Char}
    (h : commas (as.map (ArgumentForm.shown name)) ++ ')' :: r =
      commas (bs.map (ArgumentForm.shown name')) ++ ')' :: s) : as = bs ∧ r = s :=
  Text.commas_append_inj TreeEnds (treeEnds_cons (by decide)) (treeEnds_cons (by decide))
    (by decide) (fun a ha => ArgumentForm.shown_ne_close (has a ha))
    (fun b hb => ArgumentForm.shown_ne_close (hbs b hb))
    (fun a ha b hb _ _ hr hs h => ArgumentForm.shown_append_inj (has a ha) (hbs b hb) hr hs h) h

/-- What a debug marker compares with, if it does. -/
theorem compared_inj {a b : Option String}
    (h : (a.map fun c => [' ', '=', '=', ' '] ++ (Text.quote c).toList).getD [] =
      (b.map fun c => [' ', '=', '=', ' '] ++ (Text.quote c).toList).getD []) : a = b := by
  cases a with
  | none =>
    cases b with
    | none => rfl
    | some d => exact absurd h (by simp)
  | some c =>
    cases b with
    | none => exact absurd h (by simp)
    | some d =>
      have hquote := List.append_cancel_left h
      obtain ⟨rfl, -⟩ := Text.quote_append_inj (congrArg (· ++ []) hquote)
      rfl

theorem ActionForm.shown_inj {a b : ActionForm} (ha : a.Sound name) (hb : b.Sound name')
    (h : a.shown name = b.shown name') : a = b ∧ a.target?.map name = b.target?.map name' := by
  have htext := congrArg Prod.snd h
  have hblank (rest : List Char) : TreeEnds (' ' :: rest) := treeEnds_cons (by decide) rest
  have hopen (rest : List Char) : Stops ('(' :: rest) := Text.stops_cons (by decide) rest
  match a with
  | .literal t =>
    cases b with
    | literal u =>
      simp only [shown] at htext
      have hquote : (Text.quote t).toList ++ [] = (Text.quote u).toList ++ [] := by rw [htext]
      obtain ⟨rfl, -⟩ := Text.quote_append_inj hquote
      exact ⟨rfl, rfl⟩
    | _ => simp [shown] at h
  | .variable source =>
    cases b with
    | «variable» source' =>
      obtain ⟨rfl, -⟩ := OperandForm.shown_append_inj ha hb treeEnds_nil treeEnds_nil
        (congrArg (· ++ []) htext)
      exact ⟨rfl, rfl⟩
    | _ => simp [shown] at h
  | .set target value =>
    cases b with
    | set target' value' =>
      simp only [shown, List.cons_append, List.nil_append] at htext
      obtain ⟨rfl, htarget, hrest⟩ := slotShown_append_inj (hblank _).stops (hblank _).stops ha.1
        hb.1 htext
      simp only [List.cons.injEq, true_and] at hrest
      obtain ⟨rfl, -⟩ := OperandForm.shown_append_inj ha.2 hb.2 treeEnds_nil treeEnds_nil
        (congrArg (· ++ []) hrest)
      exact ⟨rfl, congrArg some htarget⟩
    | _ => simp [shown] at h
  | .call callee args site =>
    cases b with
    | call callee' args' site' =>
      simp only [shown, List.cons_append, List.nil_append] at htext
      obtain ⟨rfl, hrest⟩ := CalleeForm.shown_append_inj ha.1 hb.1 (hblank _).stops
        (hblank _).stops htext
      simp only [List.cons.injEq, true_and] at hrest
      obtain ⟨rfl, hargs⟩ := Text.natText_append_inj (hblank _).stops (hblank _).stops hrest
      simp only [List.cons.injEq, true_and] at hargs
      obtain ⟨rfl, -⟩ := arguments_append_inj ha.2 hb.2 hargs
      exact ⟨rfl, rfl⟩
    | _ => simp [shown] at h
  | .exec operation arg =>
    cases b with
    | exec operation' arg' =>
      obtain ⟨rfl, hrest⟩ := Text.name_append_inj (hopen _) (hopen _) ha.1 hb.1 htext
      obtain ⟨rfl, -⟩ := OperandForm.optional_append_inj ha.2 hb.2 (by simp) (by simp)
        (List.cons.inj hrest).2
      exact ⟨rfl, rfl⟩
    | _ => simp [shown] at h
  | .debug value compare =>
    cases b with
    | debug value' compare' =>
      obtain ⟨rfl, hrest⟩ := OperandForm.optional_append_inj ha hb (by cases compare <;> simp)
        (by cases compare' <;> simp) htext
      exact ⟨congrArg _ (compared_inj hrest), rfl⟩
    | _ => simp [shown] at h

/-- At one place of two programs, the same is shown only of the same instruction. -/
theorem InstrForm.shown_inj {i j : InstrForm} (hi : i.Sound name) (hj : j.Sound name') {place : Nat}
    (h : i.shown name place = j.shown name' place) : i.told name = j.told name' := by
  have htext := congrArg Prod.snd h
  have hblank (rest : List Char) : TreeEnds (' ' :: rest) := treeEnds_cons (by decide) rest
  cases i with
  | action a =>
    cases j with
    | action b =>
      obtain ⟨rfl, htarget⟩ := ActionForm.shown_inj hi hj h
      exact Prod.ext rfl htarget
    | branch first => cases a <;> cases first <;> simp [shown, ActionForm.shown] at h
    | _ => cases a <;> simp [shown, ActionForm.shown] at h
  | branch first cond next stop =>
    cases j with
    | action b => cases b <;> cases first <;> simp [shown, ActionForm.shown] at h
    | branch first' cond' next' stop' =>
      have hfirst : first = first' := by
        cases first <;> cases first' <;> simp [shown] at h ⊢
      simp only [shown, List.cons_append, List.nil_append] at htext
      obtain ⟨rfl, hrest⟩ := OperandForm.shown_append_inj hi hj (hblank _) (hblank _) htext
      simp only [List.cons.injEq, true_and] at hrest
      obtain ⟨hnext, htail⟩ := Program.placeText_append_inj (hblank _).stops (hblank _).stops hrest
      simp only [List.cons.injEq, true_and] at htail
      obtain ⟨hstop, -⟩ := Program.placeText_append_inj Text.stops_nil Text.stops_nil
        (congrArg (· ++ []) htail)
      obtain rfl := Nat.add_left_cancel hnext
      obtain rfl := Nat.add_left_cancel hstop
      rw [hfirst]
      rfl
    | _ => cases first <;> simp [shown] at h
  | otherwise =>
    cases j with
    | action b => cases b <;> simp [shown, ActionForm.shown] at h
    | branch first => cases first <;> simp [shown] at h
    | otherwise => rfl
    | _ => simp [shown] at h
  | loop container entry next stop =>
    cases j with
    | action b => cases b <;> simp [shown, ActionForm.shown] at h
    | branch first => cases first <;> simp [shown] at h
    | loop container' entry' next' stop' =>
      simp only [shown, List.cons_append, List.nil_append] at htext
      obtain ⟨rfl, hentry, hrest⟩ := slotShown_append_inj (hblank _).stops (hblank _).stops hi.2.1
        hj.2.1 htext
      simp only [List.cons.injEq, true_and] at hrest
      obtain ⟨rfl, htail⟩ := OperandForm.shown_append_inj hi.1 hj.1 (hblank _) (hblank _) hrest
      simp only [List.cons.injEq, true_and] at htail
      obtain ⟨hstop, -⟩ := Program.placeText_append_inj Text.stops_nil Text.stops_nil
        (congrArg (· ++ []) htail)
      obtain rfl := Nat.add_left_cancel hstop
      exact Prod.ext rfl (congrArg some hentry)
    | _ => simp [shown] at h
  | endLoop =>
    cases j with
    | action b => cases b <;> simp [shown, ActionForm.shown] at h
    | branch first => cases first <;> simp [shown] at h
    | endLoop => rfl
    | _ => simp [shown] at h

/-! All of it stands on one line. -/

theorem CalleeForm.line {callee : CalleeForm} (h : callee.Sound name) :
    '\n' ∉ callee.shown name := by
  cases callee with
  | static x => simpa [shown] using NameParts.line h
  | named x => simpa [shown] using NameParts.line h
  | dynamic slot => simpa [shown] using (solid_slotShown h).line

theorem ArgumentForm.line {arg : ArgumentForm} (h : arg.Sound name) : '\n' ∉ arg.shown name := by
  have hplace : '\n' ∉ placeShown arg.slot := by
    cases arg.slot with
    | none => exact List.not_mem_nil
    | some slot =>
      rw [placeShown, List.mem_cons, not_or]
      exact ⟨by decide, Text.line_natText slot⟩
  simp [shown, h.param.line, hplace, (OperandForm.solid h.value).line]

/-- What is shown of an instruction besides its mnemonic: nothing at all or up to a character that
is seen. -/
theorem ActionForm.solid {a : ActionForm} (h : a.Sound name) :
    (a.shown name).2 = [] ∨ Solid (a.shown name).2 := by
  match a with
  | .literal text =>
    simp only [shown]
    exact .inr (Text.solid_quote text)
  | .variable source => exact .inr (OperandForm.solid h)
  | .set target value =>
    refine .inr (.append (solid_slotShown h.1).line (.append (by decide) ?_))
    exact OperandForm.solid h.2
  | .call callee args site =>
    have hargs : '\n' ∉ commas (args.map (ArgumentForm.shown name)) := by
      refine Text.line_commas fun text htext => ?_
      obtain ⟨arg, harg, rfl⟩ := List.mem_map.mp htext
      exact ArgumentForm.line (h.2 arg harg)
    refine .inr (.append (CalleeForm.line h.1) (.append (by decide) ?_))
    refine .append (Text.line_natText site) (.append (by decide) ?_)
    exact Text.solid_concat hargs (by decide)
  | .exec operation arg =>
    have harg := Text.line_of_eq_nil_or_solid (OperandForm.solid_optional h.2)
    exact .inr (.append h.1.line (Text.solid_concat (a := '(' :: _) (by simp [harg]) (by decide)))
  | .debug value compare =>
    have hvalue := OperandForm.solid_optional h
    cases compare with
    | none => simpa [shown] using hvalue
    | some c =>
      have hcompared : Solid ([' ', '=', '=', ' '] ++ (Text.quote c).toList) :=
        .append (by decide) (Text.solid_quote c)
      exact .inr (.append (Text.line_of_eq_nil_or_solid hvalue) hcompared)

theorem InstrForm.solid {i : InstrForm} (h : i.Sound name) (place : Nat) :
    (i.shown name place).2 = [] ∨ Solid (i.shown name place).2 := by
  cases i with
  | action a => exact ActionForm.solid h
  | branch first cond next stop =>
    refine .inr (.append (OperandForm.solid h).line (.append (by decide) ?_))
    exact .append (Program.solid_placeText _).line (.append (by decide) (Program.solid_placeText _))
  | loop container entry next stop =>
    refine .inr (.append (solid_slotShown h.2.1).line (.append (by decide) ?_))
    exact .append (OperandForm.solid h.1).line (.append (by decide) (Program.solid_placeText _))
  | otherwise | endLoop => exact .inl rfl

end Shown

end TemplateEngine

import TemplateEngine.Proofs.Listing.Instructions
import TemplateEngine.Proofs.References.Mentions
import TemplateEngine.Proofs.Subject.Legible
import TemplateEngine.Proofs.Syntax.Reading

/-! What is read from a text has names in the places of names. An operand is lowered to the simplest
form of its tree. -/
namespace TemplateEngine

open TemplateEngine.Text (NameParts)

theorem Expr.IsWord.nameParts {s : String} (h : Expr.IsWord s) : NameParts s := by
  obtain ⟨c, rest, hs, hc, hrest⟩ := h
  rw [NameParts, hs]
  exact List.forall_mem_cons.mpr ⟨Text.isNamePart_of_isNameStart hc, hrest⟩

theorem Tree.sound_ofPath {name : SlotId → String} {root : Root} (hroot : root.Sound name)
    {steps : List TreeStep} (hsteps : StepsSound name steps) : (ofPath root steps).Sound name := by
  unfold ofPath
  split
  · trivial
  · next hpath => exact ⟨hroot, fun hnil v hv => hpath v hv hnil, hsteps⟩

namespace Expr

open Grammar

variable {root : Head → Option Root} {name : SlotId → String}

/-- Whatever a name becomes is shown with a name. -/
def RootsSound (root : Head → Option Root) (name : SlotId → String) : Prop :=
  ∀ head r, root head = some r → r.Sound name

theorem RootsSound.path (hroot : RootsSound root name) (head : Head) {steps : List Step}
    (h : StepsSound name (stepsTree root steps)) :
    ((Ast.path head steps).tree root).Sound name := by
  rw [Ast.tree]
  split
  · next r hr => exact Tree.sound_ofPath (hroot head r hr) h
  · trivial

mutual

theorem Grammar.Layered.sound (hroot : RootsSound root name) {layers : List Layer}
    {ts : List Token} {ast : Ast} :
    Layered layers ts ast → (∀ t ∈ ts, t.IsCut) → (ast.tree root).Sound name
  | .prefixed h, hts => h.sound hroot hts
  | .operators h hmore, hts =>
    have hts := List.forall_mem_append.mp hts
    hmore.sound hroot (h.sound hroot hts.1) hts.2

theorem Grammar.Continued.sound (hroot : RootsSound root name) {l : Layer} {tighter : List Layer}
    {ts : List Token} {left ast : Ast} : Continued l tighter left ts ast →
      (left.tree root).Sound name → (∀ t ∈ ts, t.IsCut) → (ast.tree root).Sound name
  | .done, hleft, _ => hleft
  | .operator _ h hmore, hleft, hts =>
    have hts := List.forall_mem_append.mp (List.forall_mem_cons.mp hts).2
    hmore.sound hroot ⟨hleft, h.sound hroot hts.1⟩ hts.2

theorem Grammar.Prefixed.sound (hroot : RootsSound root name) {ts : List Token} {ast : Ast} :
    Prefixed ts ast → (∀ t ∈ ts, t.IsCut) → (ast.tree root).Sound name
  | .not h, hts | .neg h _, hts => h.sound hroot (List.forall_mem_cons.mp hts).2
  | .negInt _, _ | .negFloat _, _ => trivial
  | .postfixed h, hts => h.sound hroot hts

theorem Grammar.Postfixed.sound (hroot : RootsSound root name) {ts : List Token} {ast : Ast} :
    Postfixed ts ast → (∀ t ∈ ts, t.IsCut) → (ast.tree root).Sound name
  | .parens h, hts =>
    h.sound hroot (List.forall_mem_append.mp (List.forall_mem_cons.mp hts).2).1
  | .constant _, _ => trivial
  | .literal _ hmore, hts | .identifier _ hmore, hts =>
    hroot.path _ (hmore.sound hroot (List.forall_mem_cons.mp hts).2)

theorem Grammar.Accessors.sound (hroot : RootsSound root name) {ts : List Token}
    {steps : List Step} :
    Accessors ts steps → (∀ t ∈ ts, t.IsCut) → StepsSound name (stepsTree root steps)
  | .nil, _ => trivial
  | .cons h hmore, hts =>
    have hts := List.forall_mem_append.mp hts
    ⟨h.sound hroot hts.1, hmore.sound hroot hts.2⟩

theorem Grammar.Accessor.sound (hroot : RootsSound root name) {ts : List Token} {s : Step} :
    Accessor ts s → (∀ t ∈ ts, t.IsCut) → (s.tree root).Sound name
  | .field s, hts => IsWord.nameParts (hts (.name s) (by simp))
  | .call s, hts => ⟨IsWord.nameParts (hts (.name s) (by simp)), trivial⟩
  | .callWith (s := s) h, hts => by
    refine ⟨IsWord.nameParts (hts (.name s) (by simp)), h.sound hroot fun t ht => hts t ?_⟩
    simp [ht]
  | .index _, _ | .indexFromEnd _, _ | .key _, _ => trivial

theorem Grammar.Arguments.sound (hroot : RootsSound root name) {ts : List Token}
    {args : List Ast} :
    Arguments ts args → (∀ t ∈ ts, t.IsCut) → ArgumentsSound name (argumentsTree root args)
  | .last h, hts => ⟨h.sound hroot hts, trivial⟩
  | .cons h hmore, hts =>
    have hts := List.forall_mem_append.mp hts
    ⟨h.sound hroot hts.1, hmore.sound hroot (List.forall_mem_cons.mp hts.2).2⟩

end

theorem RootsSound.parse (hroot : RootsSound root name) {cs : List Char} {e : Ast}
    (h : Expr.parse cs = .ok e) : (e.tree root).Sound name := by
  unfold Expr.parse at h
  split at h
  · cases h
  · next ts hts => exact (ofTokens_eq_ok_iff.mp h).sound hroot (isCut_of_tokens hts)

end Expr

/-- How simple an operand is made for a tree. -/
def Operand.Fits (e : Expr.Ast) : Operand → Prop
  | .constant _ | .slot _ => True
  | .path p => p.accesses = [] → p.root = .target
  | .expr _ => (∀ v, e ≠ .const v) ∧ ∀ head steps, e ≠ .path head steps

theorem Lowering.fits_operandOf (names : Names) (operand : List Char) (e : Expr.Ast) :
    Lowers names.slots.size 0 (operandOf names operand e) fun _ o => o.Fits e := by
  unfold operandOf
  split
  · exact .pure fun _ _ => trivial
  · next head steps =>
    apply (lowers_root names operand head).bind
    intro r? _ _ _
    cases r? with
    | none => exact .pure fun _ _ => trivial
    | some r =>
      apply (lowers_accesses names operand steps).bind
      intro accesses _ _ _
      split
      · exact .pure fun _ _ => trivial
      · exact .pure fun _ _ => trivial
      · next hslot hconstant =>
        refine .pure fun _ _ hnil => ?_
        cases r with
        | slot s => exact absurd hnil (hslot s rfl)
        | constant v => exact absurd hnil (hconstant v rfl)
        | target => rfl
  · next hconst hpath =>
    apply (lowers_expr names operand _).bind
    intro id _ _ _
    exact .pure fun _ _ => ⟨hconst, hpath⟩

/-- An operand that is made as simple as it can be stays so when it is read back. -/
theorem Operand.Fits.simplest {e : Expr.Ast} {o : Operand} (h : o.Fits e) {a : Arena}
    {root : Expr.Head → Option Root} (htree : o.tree a = e.tree root) : (o.form a).Simplest := by
  cases o with
  | constant v => trivial
  | slot s => trivial
  | path p => exact fun hnil => h (List.map_eq_nil_iff.mp hnil)
  | expr id =>
    change a.tree id = e.tree root at htree
    rw [Operand.form, htree]
    cases e with
    | const v => exact absurd rfl (h.1 v)
    | path head steps => exact absurd rfl (h.2 head steps)
    | unary op operand => simp [Expr.Ast.tree, OperandForm.Simplest]
    | binary op left right => simp [Expr.Ast.tree, OperandForm.Simplest]

theorem Operand.tree_form {a : Arena} {o : Operand} (h : (o.form a).Simplest) :
    (o.form a).tree = o.tree a := by
  cases o with
  | path p =>
    rw [form, OperandForm.tree, tree, Path.tree]
    unfold Tree.ofPath
    split
    · next v hroot hnil => cases (h hnil).symm.trans hroot
    · rfl
  | _ => rfl

/-! The slots of a program are named by names. -/

theorem SlotMap.shownName_of_lookup? {m : SlotMap} {name : String} {slot : SlotId}
    (h : m.lookup? name = some slot) : m.shownName slot = name := by
  rw [shownName, lookup?_eq_some_iff.mp h, Option.getD_some]

namespace Tables

def Named (t : Tables) : Prop :=
  ∀ name ∈ t.slots.names, Text.isName name.toList

variable {o : CompileOptions} {t t' later : Tables}

/-- A slot keeps the name that it is declared with. -/
theorem Named.shownName (hlater : later.Named) (hgrows : t.Grows later) {name : String}
    {slot : SlotId} (h : t.slots.lookup? name = some slot) :
    later.slots.shownName slot = name ∧ NameParts name := by
  have hslot := SlotMap.lookup?_of_prefix hgrows.slots h
  have hname := hlater name (SlotMap.mem_names_iff.mpr ⟨slot, hslot⟩)
  exact ⟨SlotMap.shownName_of_lookup? hslot, fun _ hc => Text.isNamePart_of_isName hname hc⟩

theorem Named.rootsSound (hlater : later.Named) (hgrows : t.Grows later) :
    Expr.RootsSound (Names.root? ⟨t.slots, o.constants⟩) later.slots.shownName := by
  intro head r hr
  cases r with
  | slot slot =>
    cases head with
    | name s =>
      rw [Names.root?] at hr
      split at hr
      · next slot' hslot =>
        cases hr
        obtain ⟨hshown, hname⟩ := hlater.shownName hgrows hslot
        rwa [Root.Sound, hshown]
      · obtain ⟨v, -, hv⟩ := Option.map_eq_some_iff.mp hr
        cases hv
    | this => cases hr
    | literal v => cases hr
  | constant v => trivial
  | target => trivial

/-- An operand is as simple as its tree allows, and there are names in the places of names. -/
theorem operand_sound {text : List Char} {source : Operand} {unknown : List String}
    (h : t.operand o text = .ok (source, unknown, t')) (hgrows : t'.Grows later)
    (hlater : later.Named) :
    (source.form later.arena).Simplest ∧
      (source.form later.arena).tree.Sound later.slots.shownName := by
  obtain ⟨⟨source', after⟩, hlowered, h⟩ := bind_eq_ok h
  cases h
  obtain ⟨e, hparse, harena, -, htree⟩ := Lowering.reads_ofText hlowered
  have hread := htree later.arena hgrows.arena
  have hroots : Expr.RootsSound (Names.root? ⟨t.slots, o.constants⟩) later.slots.shownName :=
    hlater.rootsSound ⟨hgrows.slots, harena.trans hgrows.arena⟩
  have hfits : source.Fits e := by
    simp only [Lowering.ofText, Expr.parse_trim, hparse] at hlowered
    have hfits := (Lowering.fits_operandOf ⟨t.slots, o.constants⟩ (Text.trim text) e
      { arena := t.arena } (Nat.zero_le _)).2
    rwa [Except.ok.inj hlowered] at hfits
  have hsimplest := hfits.simplest hread
  refine ⟨hsimplest, ?_⟩
  rw [Operand.tree_form hsimplest, hread]
  exact hroots.parse hparse

theorem headerOperand_sound {text : List Char} {cond : Operand} {unknown : List String}
    (h : t.headerOperand o text = .ok (cond, unknown, t')) (hgrows : t'.Grows later)
    (hlater : later.Named) :
    (cond.form later.arena).Simplest ∧
      (cond.form later.arena).tree.Sound later.slots.shownName := by
  obtain ⟨⟨source, unknown', t₁⟩, hoperand, h⟩ := bind_eq_ok h
  cases h
  split
  · exact operand_sound hoperand hgrows hlater
  · exact ⟨trivial, trivial⟩

end Tables

end TemplateEngine

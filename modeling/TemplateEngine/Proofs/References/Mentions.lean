import TemplateEngine.Proofs.References.Emitted
import TemplateEngine.Proofs.References.Tree
import TemplateEngine.Proofs.Text.Cut

/-! The uses of names in a source and what they become. A marker uses names in its operands, as the
callee of a call and as the targets of what it assigns; it knows the names that were declared before
it. Slots and nodes are only ever added, so what a use becomes can be said with the final tables. -/
namespace TemplateEngine

def Text.trimmed (cs : List Char) : String :=
  String.ofList (trim cs)

/-- A place in a marker where names are used. -/
inductive Mention where
  /-- An operand that is written, unless a name in it is unknown. -/
  | written (text : List Char)
  /-- An operand of a block header, which is null if a name in it is unknown. -/
  | header (text : List Char)
  | operand (text : List Char)
  | callee (name : String)
  | target (name : String)

namespace Directive

/-- The names that a marker declares, in order. -/
def declares : Directive → List String
  | .openFor var _ => [Text.trimmed var, Text.trimmed var ++ "_next"]
  | .set var _ => [Text.trimmed var]
  | .variable _ | .openIf _ | .elsif _ | .otherwise | .closeIf | .closeFor | .call .. | .exec ..
  | .debug .. => []

def mentions : Directive → List Mention
  | .variable path => [.written path]
  | .openIf cond | .elsif cond => [.header cond]
  | .openFor var container =>
    [.header container, .target (Text.trimmed var), .target (Text.trimmed var ++ "_next")]
  | .set var value => [.operand value, .target (Text.trimmed var)]
  | .call name args => .callee (Text.trimmed name) ::
    (Tables.argumentTexts args).filterMap fun arg =>
      (Text.splitOnce '=' arg).map fun binding => .operand binding.2
  | .exec _ arg => (arg.filter (!Text.isAllBlank ·)).toList.map .operand
  | .debug value _ => (value.filter (!Text.isAllBlank ·)).toList.map .operand
  | .otherwise | .closeIf | .closeFor => []

end Directive

namespace Piece

def declares : Piece → List String
  | .directive d _ => d.declares
  | .text _ | .fault .. => []

/-- The mentions in a source, each with the names that are known there. A marker does not know what
it declares itself. -/
def mentions (known : List String) : List Piece → List (List String × Mention)
  | [] => []
  | .directive d _ :: rest => d.mentions.map (known, ·) ++ mentions (known ++ d.declares) rest
  | .text _ :: rest | .fault .. :: rest => mentions known rest

end Piece

/-- What a mention becomes, if it becomes anything. -/
inductive Reference where
  | operand (t : Option Tree)
  | callee (c : Option Callee)
  | target (slot : Option SlotId)

namespace CompileOptions

variable (o : CompileOptions) (slots : SlotMap) (known : List String)

/-- A known name is its slot, any other name a constant if there is one. -/
def rootIn : Expr.Head → Option Root
  | .this => some .target
  | .literal v => some (.constant v)
  | .name s =>
    if s ∈ known then (slots.lookup? s).map .slot else (o.constants.lookup s).map .constant

/-- A known name is called as what its slot holds, any other name as a template of the registry or
as one that is looked up when the call is made. -/
def calleeIn (name : String) : Option Callee :=
  if name ∈ known then (slots.lookup? name).map .held
  else
    match o.known.resolve? name with
    | some u => some (.known u.ref)
    | none => if o.forward.contains name then some (.named name) else none

def treeIn (text : List Char) : Option Tree :=
  (Expr.parse text).toOption.map (·.tree (o.rootIn slots known))

def boundIn (text : List Char) : Bool :=
  (Expr.parse text).toOption.any (·.bound (o.rootIn slots known))

end CompileOptions

def Mention.references (o : CompileOptions) (slots : SlotMap) (known : List String) :
    Mention → List Reference
  | .written text =>
    if o.boundIn slots known text then [.operand (o.treeIn slots known text)] else []
  | .header text =>
    let tree := o.treeIn slots known text
    [.operand (if o.boundIn slots known text then tree else some (.const .null))]
  | .operand text => [.operand (o.treeIn slots known text)]
  | .callee name => [.callee (o.calleeIn slots known name)]
  | .target name => [.target (slots.lookup? name)]

namespace Action

/-- What an action refers to, read back from the arena. -/
def references (a : Arena) : Action → List Reference
  | .literal _ => []
  | .variable source => [.operand (some (source.tree a))]
  | .set target value => [.operand (some (value.tree a)), .target (some target)]
  | .call c => .callee (some c.callee) :: c.args.map fun arg => .operand (some (arg.value.tree a))
  | .exec _ arg => arg.toList.map fun value => .operand (some (value.tree a))
  | .debug value _ => value.toList.map fun value => .operand (some (value.tree a))

theorem references_notes (a : Arena) (unknown : List String) :
    (notes unknown).flatMap (references a) = [] := by
  simp [notes, references]

/-- Notes refer to nothing, so a marker refers to what its last action does. -/
theorem references_append (a : Arena) (unknown : List String) (x : Action) :
    (notes unknown ++ [x]).flatMap (references a) = x.references a := by
  rw [List.flatMap_append, references_notes, List.nil_append, List.flatMap_singleton]

end Action

def Instr.references (a : Arena) : Instr → List Reference
  | .action x => x.references a
  | .branch _ cond _ _ => [.operand (some (cond.tree a))]
  | .loop header _ => [.operand (some (header.container.tree a)), .target (some header.entry),
      .target (some header.next)]
  | .otherwise | .endLoop => []

namespace Tables

/-- What is declared and allocated stays. -/
structure Grows (t t' : Tables) : Prop where
  slots : t.slots.names <+: t'.slots.names
  arena : t.arena.nodes <:+ t'.arena.nodes

theorem Grows.refl (t : Tables) : t.Grows t :=
  ⟨List.prefix_rfl, List.suffix_rfl⟩

theorem Grows.trans {t t' t'' : Tables} (h : t.Grows t') (h' : t'.Grows t'') : t.Grows t'' :=
  ⟨h.slots.trans h'.slots, h.arena.trans h'.arena⟩

/-- The slots are those of the names declared so far, each where it was declared first. -/
def Knows (t : Tables) (known : List String) : Prop :=
  t.slots.names = known.eraseDups

/-- From `t` to `t'` mentions are read of which the references come, and then `known` is known. -/
structure Read (o : CompileOptions) (t t' : Tables) (known : List String)
    (mentions : List (List String × Mention)) (references : Arena → List Reference) : Prop where
  grows : t.Grows t'
  knows : t'.Knows known
  references (later : Tables) : t'.Grows later →
    references later.arena = mentions.flatMap fun m => m.2.references o later.slots m.1

variable {o : CompileOptions} {t t' : Tables} {known : List String}

theorem Read.nil (h : t.Knows known) : Read o t t known [] fun _ => [] :=
  ⟨.refl t, h, fun _ _ => rfl⟩

theorem Read.trans {t'' : Tables} {known' : List String}
    {mentions mentions' : List (List String × Mention)}
    {references references' : Arena → List Reference} (h : Read o t t' known mentions references)
    (h' : Read o t' t'' known' mentions' references') :
    Read o t t'' known' (mentions ++ mentions') fun a => references a ++ references' a where
  grows := h.grows.trans h'.grows
  knows := h'.knows
  references later hlater := by
    rw [h.references later (h'.grows.trans hlater), h'.references later hlater,
      List.flatMap_append]

theorem Knows.mem_iff (h : t.Knows known) {name : String} :
    name ∈ t.slots.names ↔ name ∈ known := by
  rw [h, List.mem_eraseDups]

/-- The slot of a known name is the one that it has in the end. -/
theorem Knows.lookup?_eq (h : t.Knows known) {later : Tables} (hlater : t.Grows later)
    (name : String) :
    t.slots.lookup? name = if name ∈ known then later.slots.lookup? name else none := by
  cases hslot : t.slots.lookup? name with
  | none =>
    rw [if_neg (mt h.mem_iff.mpr (SlotMap.lookup?_eq_none_iff.mp hslot))]
  | some slot =>
    rw [if_pos (h.mem_iff.mp (SlotMap.mem_names_iff.mpr ⟨slot, hslot⟩)),
      SlotMap.lookup?_of_prefix hlater.slots hslot]

theorem Knows.root?_eq (h : t.Knows known) {later : Tables} (hlater : t.Grows later) :
    Names.root? ⟨t.slots, o.constants⟩ = o.rootIn later.slots known := by
  funext head
  cases head with
  | this => rfl
  | literal v => rfl
  | name s =>
    rw [Names.root?, h.lookup?_eq hlater, CompileOptions.rootIn]
    by_cases hs : s ∈ known
    · obtain ⟨slot, hslot⟩ := SlotMap.mem_names_iff.mp (h.mem_iff.mpr hs)
      rw [if_pos hs, if_pos hs, SlotMap.lookup?_of_prefix hlater.slots hslot]
      rfl
    · rw [if_neg hs, if_neg hs]

/-- An operand is read back as its tree, and it has no unknown names if it is bound. -/
theorem operand_read (h : t.Knows known) {text : List Char} {source : Operand}
    {unknown : List String} (hread : t.operand o text = .ok (source, unknown, t')) :
    t.Grows t' ∧ t'.Knows known ∧ ∀ later, t'.Grows later →
      o.treeIn later.slots known text = some (source.tree later.arena) ∧
        o.boundIn later.slots known text = unknown.isEmpty := by
  obtain ⟨⟨source', after⟩, hlowered, hread⟩ := bind_eq_ok hread
  cases hread
  obtain ⟨e, hparse, harena, hunknown, htree⟩ := Lowering.reads_ofText hlowered
  have hgrows : t.Grows { t with arena := after.arena } := ⟨List.prefix_rfl, harena⟩
  refine ⟨hgrows, h, fun later hlater => ?_⟩
  rw [CompileOptions.treeIn, CompileOptions.boundIn, hparse, ← h.root?_eq (hgrows.trans hlater)]
  refine ⟨congrArg some (htree later.arena hlater.arena).symm, ?_⟩
  rw [hunknown, Bool.eq_iff_iff, List.isEmpty_iff]
  exact e.bound_iff _ _

theorem read_operand (h : t.Knows known) {text : List Char} {source : Operand}
    {unknown : List String} (hread : t.operand o text = .ok (source, unknown, t')) :
    Read o t t' known [(known, .operand text)] fun a => [.operand (some (source.tree a))] := by
  obtain ⟨hgrows, hknows, hlater⟩ := operand_read h hread
  refine ⟨hgrows, hknows, fun later hgrown => ?_⟩
  rw [List.flatMap_singleton, Mention.references, (hlater later hgrown).1]

theorem read_headerOperand (h : t.Knows known) {text : List Char} {cond : Operand}
    {unknown : List String} (hread : t.headerOperand o text = .ok (cond, unknown, t')) :
    Read o t t' known [(known, .header text)] fun a => [.operand (some (cond.tree a))] := by
  obtain ⟨⟨source, unknown', t₁⟩, hoperand, hread⟩ := bind_eq_ok hread
  cases hread
  obtain ⟨hgrows, hknows, hlater⟩ := operand_read h hoperand
  refine ⟨hgrows, hknows, fun later hgrown => ?_⟩
  rw [List.flatMap_singleton, Mention.references, (hlater later hgrown).1, (hlater later hgrown).2]
  split <;> rfl

theorem read_write (h : t.Knows known) {path : List Char} {actions : List Action}
    (hread : t.write o path = .ok (actions, t')) :
    Read o t t' known [(known, .written path)] fun a => actions.flatMap (Action.references a) := by
  obtain ⟨⟨source, unknown, t₁⟩, hoperand, hread⟩ := bind_eq_ok hread
  cases hread
  obtain ⟨hgrows, hknows, hlater⟩ := operand_read h hoperand
  refine ⟨hgrows, hknows, fun later hgrown => ?_⟩
  rw [List.flatMap_singleton, Mention.references, (hlater later hgrown).1, (hlater later hgrown).2]
  split
  · rw [List.flatMap_singleton, Action.references]
  · exact Action.references_notes _ _

theorem of_declare {name : List Char} {slot : SlotId} (h : t.declare name = .ok (slot, t')) :
    Text.isName (Text.trim name) ∧ slot = (t.slots.declare (Text.trimmed name)).2 ∧
      t' = { t with slots := (t.slots.declare (Text.trimmed name)).1 } := by
  unfold declare at h
  dsimp only at h
  split at h
  · next hname =>
    obtain ⟨rfl, rfl⟩ := Prod.mk.inj (Except.ok.inj h)
    exact ⟨hname, rfl, rfl⟩
  · cases h

/-- A target is known from its declaration on, which the mention of it does not have to wait for. -/
theorem read_declare (h : t.Knows known) {name : List Char} {slot : SlotId}
    (hread : t.declare name = .ok (slot, t')) (known' : List String) :
    Read o t t' (known ++ [Text.trimmed name]) [(known', .target (Text.trimmed name))]
      fun _ => [.target (some slot)] := by
  obtain ⟨-, rfl, rfl⟩ := of_declare hread
  refine ⟨⟨t.slots.declare_prefix _, List.suffix_rfl⟩, ?_, fun later hlater => ?_⟩
  · rw [Knows, SlotMap.names_declare, List.eraseDups_append, ← h]
    simp only [h.mem_iff]
    by_cases hname : Text.trimmed name ∈ known
    · simp [List.removeAll, hname]
    · simp [List.removeAll, hname, List.eraseDups_cons]
  · rw [List.flatMap_singleton, Mention.references,
      SlotMap.lookup?_of_prefix hlater.slots (t.slots.lookup?_declare _)]

theorem trimmed_lookahead {var : List Char} (h : Text.isName (Text.trim var)) :
    Text.trimmed (lookahead var) = Text.trimmed var ++ "_next" := by
  have hself : Text.trim (lookahead var) = lookahead var := by
    have hsuffix : "_next".toList.all (!Text.isBlank ·) := by decide
    refine Text.trim_eq_self fun c hc => ?_
    obtain hc | hc := List.mem_append.mp hc
    · exact Text.not_isBlank_of_isName h hc
    · simpa using List.all_eq_true.mp hsuffix c hc
  rw [Text.trimmed, hself, lookahead, String.ofList_append, Text.trimmed]
  rfl

theorem read_loopHeader (h : t.Knows known) {var container : List Char} {header : Loop}
    {unknown : List String} (hread : t.loopHeader o var container = .ok (header, unknown, t')) :
    Read o t t' (known ++ (Directive.openFor var container).declares)
      ((Directive.openFor var container).mentions.map (known, ·))
      fun a => (Instr.loop header 0).references a := by
  obtain ⟨⟨container', unknown', t₁⟩, hcontainer, hread⟩ := bind_eq_ok hread
  obtain ⟨⟨entry, t₂⟩, hentry, hread⟩ := bind_eq_ok hread
  obtain ⟨⟨next, t₃⟩, hnext, hread⟩ := bind_eq_ok hread
  cases hread
  have hcontainer := read_headerOperand h hcontainer
  have hname := trimmed_lookahead (of_declare hentry).1
  have hentry := read_declare (o := o) hcontainer.knows hentry known
  have hnext := read_declare (o := o) hentry.knows hnext known
  rw [hname, List.append_assoc] at hnext
  exact (hcontainer.trans hentry).trans hnext

theorem read_set (h : t.Knows known) {var value : List Char} {actions : List Action}
    (hread : t.set o var value = .ok (actions, t')) :
    Read o t t' (known ++ (Directive.set var value).declares)
      ((Directive.set var value).mentions.map (known, ·))
      fun a => actions.flatMap (Action.references a) := by
  obtain ⟨⟨value', unknown, t₁⟩, hvalue, hread⟩ := bind_eq_ok hread
  obtain ⟨⟨target, t₂⟩, htarget, hread⟩ := bind_eq_ok hread
  cases hread
  have hvalue := read_operand h hvalue
  have htarget := read_declare (o := o) hvalue.knows htarget known
  simp only [Action.references_append]
  exact hvalue.trans htarget

theorem read_callee (h : t.Knows known) {name : String} {callee : Callee} {u? : Option Template}
    (hread : t.callee o name = .ok (callee, u?)) :
    Read o t t known [(known, .callee name)] fun _ => [.callee (some callee)] := by
  refine ⟨.refl t, h, fun later hlater => ?_⟩
  rw [List.flatMap_singleton, Mention.references, CompileOptions.calleeIn]
  unfold Tables.callee at hread
  rw [h.lookup?_eq hlater] at hread
  by_cases hname : name ∈ known
  · rw [if_pos hname] at hread ⊢
    obtain ⟨slot, hslot⟩ := SlotMap.mem_names_iff.mp (h.mem_iff.mpr hname)
    rw [SlotMap.lookup?_of_prefix hlater.slots hslot] at hread ⊢
    cases hread
    rfl
  · rw [if_neg hname] at hread ⊢
    split at hread
    · next heq => cases heq
    · next u _ hu =>
      cases hread
      rw [hu]
    · next _ hnone =>
      rw [hnone]
      dsimp only
      split at hread
      · next hforward =>
        cases hread
        rw [if_pos hforward]
      · cases hread

theorem read_argument (h : t.Knows known) {u? : Option Template} {text : List Char} {arg : Argument}
    {unknown : List String} (hread : t.argument o u? text = .ok (arg, unknown, t')) :
    ∃ binding, Text.splitOnce '=' text = some binding ∧
      Read o t t' known [(known, .operand binding.2)]
        fun a => [.operand (some (arg.value.tree a))] := by
  unfold argument at hread
  split at hread
  · cases hread
  · next param value hsplit =>
    dsimp only at hread
    split at hread
    · cases hread
    · obtain ⟨slot, -, hread⟩ := bind_eq_ok hread
      obtain ⟨⟨value', unknown', t₁⟩, hvalue, hread⟩ := bind_eq_ok hread
      cases hread
      exact ⟨(param, value), hsplit, read_operand h hvalue⟩

theorem read_arguments (h : t.Knows known) {u? : Option Template} {texts : List (List Char)}
    {args : List Argument} {unknown : List String}
    (hread : t.arguments o u? texts = .ok (args, unknown, t')) :
    Read o t t' known
      ((texts.filterMap fun arg =>
        (Text.splitOnce '=' arg).map fun binding => Mention.operand binding.2).map (known, ·))
      fun a => args.map fun arg => .operand (some (arg.value.tree a)) := by
  induction texts generalizing t args unknown with
  | nil =>
    cases hread
    exact .nil h
  | cons text rest ih =>
    obtain ⟨⟨arg, unknown₁, t₁⟩, harg, hread⟩ := bind_eq_ok hread
    obtain ⟨⟨args', unknown₂, t₂⟩, hargs, hread⟩ := bind_eq_ok hread
    cases hread
    obtain ⟨binding, hsplit, harg⟩ := read_argument h harg
    have hargs := harg.trans (ih harg.knows hargs)
    rw [List.filterMap_cons, hsplit]
    exact hargs

theorem read_call (h : t.Knows known) {name : List Char} {args : Option (List Char)}
    {actions : List Action} (hread : t.call o name args = .ok (actions, t')) :
    Read o t t' known ((Directive.call name args).mentions.map (known, ·))
      fun a => actions.flatMap (Action.references a) := by
  obtain ⟨⟨callee, u?⟩, hcallee, hread⟩ := bind_eq_ok hread
  obtain ⟨⟨args', unknown, t₁⟩, hargs, hread⟩ := bind_eq_ok hread
  cases hread
  have hcall := (read_callee h hcallee).trans (read_arguments h hargs)
  simp only [Action.references_append]
  exact ⟨⟨hcall.grows.slots, hcall.grows.arena⟩, hcall.knows,
    fun later hlater => hcall.references later ⟨hlater.slots, hlater.arena⟩⟩

theorem read_exec (h : t.Knows known) {op : List Char} {arg : Option (List Char)}
    {actions : List Action} (hread : t.exec o op arg = .ok (actions, t')) :
    Read o t t' known ((Directive.exec op arg).mentions.map (known, ·))
      fun a => actions.flatMap (Action.references a) := by
  unfold exec at hread
  dsimp only at hread
  rw [Directive.mentions]
  split at hread
  · split at hread
    · split at hread
      · cases hread
      · cases hread
      · next harg =>
        cases hread
        rw [harg]
        exact .nil h
      · next text _ harg =>
        obtain ⟨⟨value, unknown, t₁⟩, hoperand, hread⟩ := bind_eq_ok hread
        cases hread
        rw [harg]
        simp only [Action.references_append]
        exact read_operand h hoperand
    · cases hread
  · cases hread

theorem read_debug (h : t.Knows known) {value compare : Option (List Char)}
    {actions : List Action} (hread : t.debug o value compare = .ok (actions, t')) :
    Read o t t' known ((Directive.debug value compare).mentions.map (known, ·))
      fun a => actions.flatMap (Action.references a) := by
  unfold debug at hread
  dsimp only at hread
  rw [Directive.mentions]
  split at hread
  · next hvalue =>
    cases hread
    rw [hvalue]
    exact .nil h
  · next text hvalue =>
    obtain ⟨⟨value', unknown, t₁⟩, hoperand, hread⟩ := bind_eq_ok hread
    cases hread
    rw [hvalue]
    simp only [Action.references_append]
    exact read_operand h hoperand

end Tables

end TemplateEngine

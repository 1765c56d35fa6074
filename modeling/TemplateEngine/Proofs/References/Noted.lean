import TemplateEngine.Proofs.Meaning.Unknown
import TemplateEngine.Proofs.Nested.Views
import TemplateEngine.Proofs.References.Mentions

/-! The notes of markers. A marker notes the names that are reported for its operands, one literal
for each, in order; it has none if and only if it knows every name in its operands. -/
namespace TemplateEngine

open TemplateEngine.Expr (Ast Token Occurrence headNames)

/-- The text that a marker writes of itself. -/
def Action.texts : Action → List String
  | .literal text => [text]
  | .variable _ | .set .. | .call _ | .exec .. | .debug .. => []

def Instr.literalView : Instr.View String where
  sees
    | .action a => a.texts
    | .branch .. | .otherwise | .loop .. | .endLoop => []
  setNext _ i := by cases i <;> rfl
  setStop _ i := by cases i <;> rfl

def Emitter.literals (e : Emitter) : List String :=
  e.seen Instr.literalView

theorem Action.texts_notes (unknown : List String) :
    (notes unknown).flatMap texts = unknown.map unknownNote := by
  rw [notes, List.flatMap_map]
  exact List.map_eq_flatMap.symm

/-- Notes and one action that is no literal. -/
theorem Action.texts_append (unknown : List String) {x : Action} (hx : x.texts = []) :
    (notes unknown ++ [x]).flatMap texts = unknown.map unknownNote := by
  rw [List.flatMap_append, texts_notes, List.flatMap_singleton, hx, List.append_nil]

def Mention.operand? : Mention → Option (List Char)
  | .written text | .header text | .operand text => some text
  | .callee _ | .target _ => none

/-- The texts of the operands of a marker, from left to right. -/
def Directive.operands (d : Directive) : List (List Char) :=
  d.mentions.filterMap Mention.operand?

namespace Names

variable {names : Names} {text : List Char} {unknown : List String}

/-- The text is that of an operand, and these are the names reported for it. -/
def Finds (names : Names) (text : List Char) (unknown : List String) : Prop :=
  ∃ e, Expr.parse text = .ok e ∧ unknown = names.reported (Text.trim text) (e.occurrences [])

theorem forall_occurrences_iff {p : String → Prop} {e : Ast} :
    (∀ x ∈ e.occurrences [], p x.name) ↔ ∀ s ∈ e.names, p s := by
  rw [← e.map_name_occurrences [], List.forall_mem_map]

theorem Finds.eq_nil_iff (h : names.Finds text unknown) :
    unknown = [] ↔
      ∀ e, Expr.parse text = .ok e → ∀ x ∈ e.occurrences [], names.knows x.name := by
  obtain ⟨e, he, rfl⟩ := h
  rw [e.reported_occurrences, List.all_nil, if_pos rfl, e.unknown_eq_nil_iff, he]
  simp only [forall_occurrences_iff (p := fun s => names.knows s), Except.ok.injEq, forall_eq']

theorem flatten_eq_nil_iff {operands : List (List Char)} {unknown : List (List String)}
    (h : List.Forall₂ names.Finds operands unknown) :
    unknown.flatten = [] ↔ ∀ text ∈ operands, ∀ e, Expr.parse text = .ok e →
      ∀ x ∈ e.occurrences [], names.knows x.name := by
  induction h with
  | nil => exact iff_of_true rfl (List.forall_mem_nil _)
  | cons htext _ ih => rw [List.flatten_cons, List.append_eq_nil_iff, List.forall_mem_cons,
      htext.eq_nil_iff, ih]

end Names

namespace Tables

variable (o : CompileOptions) (t : Tables)

/-- The names as a marker knows them that comes after what was laid down. -/
def names : Names :=
  ⟨t.slots, o.constants⟩

/-- The operands of the marker find the names that the texts note. -/
def Notes (operands : List (List Char)) (texts : List String) : Prop :=
  ∃ unknown : List (List String), List.Forall₂ (t.names o).Finds operands unknown ∧
    texts = unknown.flatten.map unknownNote

variable {o t} {t' : Tables} {actions : List Action}

theorem Notes.nil : t.Notes o [] [] :=
  ⟨[], .nil, rfl⟩

theorem Notes.cons {text : List Char} {unknown : List String} {operands : List (List Char)}
    {texts : List String} (h : (t.names o).Finds text unknown) (hrest : t.Notes o operands texts) :
    t.Notes o (text :: operands) (unknown.map unknownNote ++ texts) := by
  obtain ⟨more, hmore, rfl⟩ := hrest
  exact ⟨unknown :: more, .cons h hmore, by rw [List.flatten_cons, List.map_append]⟩

theorem Notes.single {text : List Char} {unknown : List String}
    (h : (t.names o).Finds text unknown) :
    t.Notes o [text] (unknown.map unknownNote) := by
  rw [← List.append_nil (unknown.map _)]
  exact .cons h .nil

theorem finds_operand {text : List Char} {source : Operand} {unknown : List String}
    (h : t.operand o text = .ok (source, unknown, t')) : (t.names o).Finds text unknown := by
  obtain ⟨⟨source, after⟩, hlowered, h⟩ := bind_eq_ok h
  cases h
  obtain ⟨e, he, -, hunknown, -⟩ := Lowering.reads_ofText hlowered
  refine ⟨e, he, ?_⟩
  rw [e.reported_occurrences, List.all_nil, if_pos rfl]
  exact hunknown

theorem notes_headerOperand {text : List Char} {cond : Operand} {unknown : List String}
    (h : t.headerOperand o text = .ok (cond, unknown, t')) :
    t.Notes o [text] (unknown.map unknownNote) := by
  obtain ⟨⟨source, unknown', t₁⟩, hoperand, h⟩ := bind_eq_ok h
  cases h
  exact .single (finds_operand hoperand)

theorem notes_loopHeader {var container : List Char} {header : Loop} {unknown : List String}
    (h : t.loopHeader o var container = .ok (header, unknown, t')) :
    t.Notes o [container] (unknown.map unknownNote) := by
  obtain ⟨⟨container', unknown', t₁⟩, hcontainer, h⟩ := bind_eq_ok h
  obtain ⟨⟨entry, t₂⟩, -, h⟩ := bind_eq_ok h
  obtain ⟨⟨next, t₃⟩, -, h⟩ := bind_eq_ok h
  cases h
  exact notes_headerOperand hcontainer

theorem notes_write {path : List Char} (h : t.write o path = .ok (actions, t')) :
    t.Notes o [path] (actions.flatMap Action.texts) := by
  obtain ⟨⟨source, unknown, t₁⟩, hoperand, h⟩ := bind_eq_ok h
  cases h
  have hnotes := Notes.single (finds_operand hoperand)
  split
  · next hnone =>
    rw [List.isEmpty_iff.mp hnone] at hnotes
    exact hnotes
  · rwa [Action.texts_notes]

theorem notes_set {var value : List Char} (h : t.set o var value = .ok (actions, t')) :
    t.Notes o [value] (actions.flatMap Action.texts) := by
  obtain ⟨⟨value', unknown, t₁⟩, hvalue, h⟩ := bind_eq_ok h
  obtain ⟨⟨target, t₂⟩, -, h⟩ := bind_eq_ok h
  cases h
  rw [Action.texts_append _ rfl]
  exact .single (finds_operand hvalue)

theorem notes_argument {known : Option Template} {text : List Char} {arg : Argument}
    {unknown : List String} (h : t.argument o known text = .ok (arg, unknown, t')) :
    ∃ binding, Text.splitOnce '=' text = some binding ∧ (t.names o).Finds binding.2 unknown ∧
      t'.slots = t.slots := by
  unfold argument at h
  split at h
  · cases h
  · next param value hsplit =>
    dsimp only at h
    split at h
    · cases h
    · obtain ⟨slot, -, h⟩ := bind_eq_ok h
      obtain ⟨⟨value', unknown', t₁⟩, hvalue, h⟩ := bind_eq_ok h
      cases h
      exact ⟨(param, value), hsplit, finds_operand hvalue, slots_operand hvalue⟩

theorem notes_arguments {known : Option Template} {texts : List (List Char)} {args : List Argument}
    {unknown : List String} (h : t.arguments o known texts = .ok (args, unknown, t')) :
    t.Notes o (texts.filterMap fun arg => (Text.splitOnce '=' arg).map (·.2))
      (unknown.map unknownNote) := by
  induction texts generalizing t args unknown with
  | nil =>
    cases h
    exact .nil
  | cons text rest ih =>
    obtain ⟨⟨arg, unknown₁, t₁⟩, harg, h⟩ := bind_eq_ok h
    obtain ⟨⟨args', unknown₂, t₂⟩, hargs, h⟩ := bind_eq_ok h
    cases h
    obtain ⟨binding, hsplit, hfinds, hslots⟩ := notes_argument harg
    have hnames : t₁.names o = t.names o := by rw [names, names, hslots]
    have hrest := ih hargs
    rw [Notes, hnames] at hrest
    rw [List.filterMap_cons, hsplit, List.map_append]
    exact .cons hfinds hrest

theorem operands_call (name : List Char) (args : Option (List Char)) :
    (Directive.call name args).operands =
      (argumentTexts args).filterMap fun arg => (Text.splitOnce '=' arg).map (·.2) := by
  refine (List.filterMap_filterMap (g := Mention.operand?)).trans ?_
  congr 1
  funext arg
  cases Text.splitOnce '=' arg <;> rfl

theorem notes_call {name : List Char} {args : Option (List Char)}
    (h : t.call o name args = .ok (actions, t')) :
    t.Notes o (Directive.call name args).operands (actions.flatMap Action.texts) := by
  obtain ⟨⟨callee, known⟩, -, h⟩ := bind_eq_ok h
  obtain ⟨⟨args', unknown, t₁⟩, hargs, h⟩ := bind_eq_ok h
  cases h
  rw [operands_call, Action.texts_append _ rfl]
  exact notes_arguments hargs

theorem notes_exec {op : List Char} {arg : Option (List Char)}
    (h : t.exec o op arg = .ok (actions, t')) :
    t.Notes o (Directive.exec op arg).operands (actions.flatMap Action.texts) := by
  unfold exec at h
  dsimp only at h
  rw [Directive.operands, Directive.mentions]
  split at h
  · split at h
    · split at h
      · cases h
      · cases h
      · next harg =>
        cases h
        rw [harg]
        exact .nil
      · next text _ harg =>
        obtain ⟨⟨value, unknown, t₁⟩, hoperand, h⟩ := bind_eq_ok h
        cases h
        rw [harg, Action.texts_append _ rfl]
        exact .single (finds_operand hoperand)
    · cases h
  · cases h

theorem notes_debug {value compare : Option (List Char)}
    (h : t.debug o value compare = .ok (actions, t')) :
    t.Notes o (Directive.debug value compare).operands (actions.flatMap Action.texts) := by
  unfold debug at h
  dsimp only at h
  rw [Directive.operands, Directive.mentions]
  split at h
  · next hvalue =>
    cases h
    rw [hvalue]
    exact .nil
  · next text hvalue =>
    obtain ⟨⟨value', unknown, t₁⟩, hoperand, h⟩ := bind_eq_ok h
    cases h
    rw [hvalue, Action.texts_append _ rfl]
    exact .single (finds_operand hoperand)

end Tables

namespace Emitter

variable {o : CompileOptions} {e e' : Emitter}

/-- From `e` to `e'` the text before the marker is laid out, and then what it notes. -/
def Notes (o : CompileOptions) (e e' : Emitter) (operands : List (List Char)) : Prop :=
  ∃ texts, e.tables.Notes o operands texts ∧ e'.literals = e.flush.literals ++ texts

theorem notes_perform {marker : Except Fault (List Action × Tables)} {operands : List (List Char)}
    (hmarker : ∀ {actions tables}, marker = .ok (actions, tables) →
      e.tables.Notes o operands (actions.flatMap Action.texts))
    (h : e.perform marker = .ok e') : e.Notes o e' operands := by
  obtain ⟨⟨actions, tables⟩, hmarker', h⟩ := bind_eq_ok h
  cases h
  exact ⟨_, hmarker hmarker', e.flush.seen_emitAll Instr.literalView actions⟩

/-- The header of a block comes after its notes. -/
theorem notes_header {tables : Tables} {operands : List (List Char)} {unknown : List String}
    {i : Instr} {blocks : List OpenBlock} (hi : Instr.literalView.sees i = []) {k : Emitter}
    (hk : k.literals = e.flush.literals) (h : e.tables.Notes o operands (unknown.map unknownNote)) :
    e.Notes o { (k.emitAll (notes unknown)).emit i with tables, blocks } operands := by
  refine ⟨_, h, ?_⟩
  have hall := (k.emitAll (notes unknown)).seen_emit Instr.literalView i
  rw [hi, List.append_nil, seen_emitAll] at hall
  exact hall.trans (congrArg₂ (· ++ ·) hk (Action.texts_notes unknown))

/-- A marker without operands. -/
theorem notes_nothing (h : e'.literals = e.flush.literals) : e.Notes o e' [] :=
  ⟨[], .nil, h.trans (List.append_nil _).symm⟩

theorem notes_directive {span : Text.Span} {d : Directive} (h : e.directive o span d = .ok e') :
    e.Notes o e' d.operands := by
  match d with
  | .variable path => exact notes_perform Tables.notes_write h
  | .openIf cond =>
    obtain ⟨⟨cond', unknown, tables⟩, hcond, h⟩ := bind_eq_ok h
    cases h
    exact notes_header rfl rfl (Tables.notes_headerOperand hcond)
  | .elsif cond =>
    obtain ⟨e₁, hclose, h⟩ := bind_eq_ok h
    obtain ⟨⟨cond', unknown, tables⟩, hcond, h⟩ := bind_eq_ok h
    cases h
    obtain ⟨htables, hseen⟩ := seen_closeLink Instr.literalView hclose
    rw [htables] at hcond
    exact notes_header rfl hseen (Tables.notes_headerOperand hcond)
  | .otherwise =>
    obtain ⟨e₁, hclose, h⟩ := bind_eq_ok h
    cases h
    obtain ⟨-, hseen⟩ := seen_closeLink Instr.literalView hclose
    refine notes_nothing ((seen_emit _ e₁ .otherwise).trans ?_)
    exact (List.append_nil _).trans hseen
  | .closeIf => exact notes_nothing (seen_closeIf Instr.literalView h).2
  | .openFor var container =>
    obtain ⟨⟨header, unknown, tables⟩, hheader, h⟩ := bind_eq_ok h
    cases h
    exact notes_header rfl rfl (Tables.notes_loopHeader hheader)
  | .closeFor =>
    exact notes_nothing ((seen_closeFor Instr.literalView h).2.trans (List.append_nil _))
  | .set var value => exact notes_perform Tables.notes_set h
  | .call name args => exact notes_perform Tables.notes_call h
  | .exec op arg => exact notes_perform Tables.notes_exec h
  | .debug value compare => exact notes_perform Tables.notes_debug h

end Emitter

/-- An operand that can be read is lowered, and of the names that its paths start with each unknown
one is reported, from left to right and as often as it comes, unless it stands in the arguments of a
method of something that is unknown itself; no other name is. So all unknown names are reported
where none of them stands behind another, and none is reported only where all are known. A marker
notes what is reported for its operands after the text before it, and writes nothing else of itself:
it has no notes if and only if it knows every name in its operands. -/
theorem unknown_names (names : Names) (arena : Arena) {text : List Char} {ts : List Token} {e : Ast}
    (hts : Expr.tokens text = .ok ts) (he : Expr.parse text = .ok e) :
    let occurrences := e.occurrences []
    let unknown := occurrences.filter (!names.knows ·.name)
    let shown (xs : List Occurrence) := xs.map fun x => unknownText (Text.trim text) x.name
    (occurrences.map (·.name) = headNames ts ∧
      ∃ source lowered, Lowering.ofText names arena text = .ok (source, lowered) ∧
        lowered.unknown = shown (unknown.filter (·.behind.all names.knows)) ∧
        (lowered.unknown = shown unknown ↔ ∀ x ∈ unknown, x.behind.all names.knows) ∧
        (lowered.unknown = [] ↔ ∀ x ∈ occurrences, names.knows x.name)) ∧
    ∀ (o : CompileOptions) (k k' : Emitter) (span : Text.Span) (d : Directive),
      k.directive o span d = .ok k' →
      ∃ unknown : List (List String),
        List.Forall₂ (k.tables.names o).Finds d.operands unknown ∧
          k'.literals = k.flush.literals ++ unknown.flatten.map unknownNote ∧
          (k'.literals = k.flush.literals ↔ ∀ text ∈ d.operands, ∀ e, Expr.parse text = .ok e →
            ∀ x ∈ e.occurrences [], (k.tables.names o).knows x.name) := by
  intro occurrences unknown shown
  constructor
  · obtain ⟨source, lowered, hlower, -, hunknown⟩ := Lowering.exists_ofText names arena he
    have hreported : lowered.unknown = names.reported (Text.trim text) occurrences := by
      rw [hunknown, e.reported_occurrences, List.all_nil, if_pos rfl]
    refine ⟨Expr.headNames_of_parse hts he, source, lowered, hlower, ?_, ?_, ?_⟩
    · rw [hreported, Names.reported_eq]
    · rw [hreported]
      exact names.reported_eq_iff _ occurrences
    · rw [hunknown, e.unknown_eq_nil_iff]
      exact Names.forall_occurrences_iff.symm
  · intro o k k' span d h
    obtain ⟨_, ⟨unknown, hfinds, rfl⟩, hliterals⟩ := Emitter.notes_directive h
    refine ⟨unknown, hfinds, hliterals, ?_⟩
    rw [hliterals, List.append_right_eq_self, List.map_eq_nil_iff]
    exact Names.flatten_eq_nil_iff hfinds

/-- The first `d` stands behind the unknown `c` and is passed over, the second one is not. -/
theorem unknown_names_argument :
    let text := "a.f(b, c.g(d)) + d".toList
    let k : Emitter := { tables := { slots := { names := ["b"] } }, text := ['t'] }
    let o : CompileOptions := { constants := [("a", .null)] }
    (∃ source lowered, Lowering.ofText (k.tables.names o) {} text = .ok (source, lowered) ∧
      lowered.unknown = ["c", "d"]) ∧
    ∃ k', k.directive o ⟨0, 0⟩ (.set ['x'] text) = .ok k' ∧
      k'.literals = ["t", "[?c: unknown variable]", "[?d: unknown variable]"] := by
  intro text k o
  have hfacts : (match Expr.tokens text, Expr.parse text with
      | .ok _, .ok e =>
        (k.tables.names o).reported (Text.trim text) (e.occurrences []) == ["c", "d"]
      | _, _ => false) = true := by decide +kernel
  cases hts : Expr.tokens text with
  | error => simp [hts] at hfacts
  | ok ts =>
    cases he : Expr.parse text with
    | error => simp [hts, he] at hfacts
    | ok e =>
      simp only [hts, he, beq_iff_eq] at hfacts
      obtain ⟨⟨-, source, lowered, hlower, hunknown, -⟩, hdirective⟩ :=
        unknown_names (k.tables.names o) {} hts he
      refine ⟨⟨source, lowered, hlower, ?_⟩, ?_⟩
      · exact hunknown.trans ((Names.reported_eq ..).symm.trans hfacts)
      · have hok : (k.directive o ⟨0, 0⟩ (.set ['x'] text)).isOk = true := by decide +kernel
        cases hd : k.directive o ⟨0, 0⟩ (.set ['x'] text) with
        | error f => simp [hd, Except.isOk, Except.toBool] at hok
        | ok k' =>
          obtain ⟨unknown, hfinds, hliterals, -⟩ := hdirective o k k' ⟨0, 0⟩ (.set ['x'] text) hd
          obtain ⟨_, _, ⟨e', he', rfl⟩, hnone, rfl⟩ := List.forall₂_cons_left_iff.mp hfinds
          cases List.forall₂_nil_left_iff.mp hnone
          rw [he] at he'
          cases he'
          refine ⟨k', rfl, hliterals.trans ?_⟩
          rw [List.flatten_singleton, hfacts]
          decide +kernel

/-- Both names are unknown, and one is reported. -/
theorem unknown_names_behind :
    let text := "x.f(y)".toList
    let names : Names := ⟨.empty, []⟩
    (Expr.parse text).toOption.map (fun e =>
        ((e.occurrences []).filter (!names.knows ·.name)).map (·.name)) = some ["x", "y"] ∧
      (Lowering.ofText names {} text).toOption.map (·.2.unknown) = some ["x"] := by
  decide +kernel

end TemplateEngine

import Mathlib.Data.List.DropRight
import TemplateEngine.Compile.Tables
import TemplateEngine.Proofs.Debug.Scan
import TemplateEngine.Proofs.Syntax.Reading
import TemplateEngine.Proofs.Syntax.Searched

/-! Operands inside markers. An operand that is put into a marker is taken out of it again as it
was, whatever strings and brackets are in it: the marker ends where it was meant to end, has the
form that it was meant to have, and its parts are cut where they were put together. -/
namespace TemplateEngine

open Text.Nesting (delimiters past past_trans past_of_not_delimiter)

namespace Expr

/-- An operand that can stand in a marker: it can be read, and every `>` of it outside string
literals stands in parentheses or brackets. -/
structure Embeddable (cs : List Char) : Prop where
  read : (parse cs).isOk
  closed : ∀ ts, tokens cs = .ok ts → ∀ t ∈ outermost 0 ts, ¬t.Shows '>'

theorem embeddable_iff {cs : List Char} : Embeddable cs ↔
    (parse cs).isOk ∧ ∀ t ∈ (tokens cs).toOption.elim [] (outermost 0), ¬t.Shows '>' := by
  cases htokens : tokens cs with
  | error e =>
    exact ⟨fun h => ⟨h.read, nofun⟩, fun h => ⟨h.1, fun ts hts => by simp [htokens] at hts⟩⟩
  | ok ts =>
    refine ⟨fun h => ⟨h.read, h.closed ts htokens⟩, fun h => ⟨h.1, fun us hus => ?_⟩⟩
    obtain rfl : ts = us := Except.ok.inj (htokens.symm.trans hus)
    exact h.2

instance (cs : List Char) : Decidable (Embeddable cs) :=
  decidable_of_iff _ embeddable_iff.symm

/-- Neither the end of a marker nor the end of an argument is found in such an operand. -/
theorem Embeddable.passed {cs : List Char} (h : Embeddable cs) {stop : Char}
    (hstop : stop = ',' ∨ stop = '>') : past stop {} cs = some {} := by
  have hread := h.read
  unfold parse at hread
  split at hread
  · cases hread
  · next ts hts =>
    obtain ⟨ast, hast⟩ : ∃ ast, ofTokens ts = .ok ast := by
      cases hof : ofTokens ts with
      | error e => rw [hof] at hread; cases hread
      | ok ast => exact ⟨ast, rfl⟩
    have hbalanced : Balanced 0 ts := (ofTokens_eq_ok_iff.mp hast).balanced
    have hout : ∀ t ∈ outermost 0 ts, ¬t.Shows stop := by
      obtain rfl | rfl := hstop
      · intro t ht hshows
        obtain rfl : t = .punct .comma := by
          cases t with
          | punct p => cases p <;> first | rfl | exact absurd hshows (by decide)
          | _ => cases hshows
        exact hbalanced.comma (Nat.le_refl 0) ht
      · exact h.closed ts hts
    have hpast : past stop {} cs = some { depth := ts.foldl Token.depthAfter 0 } :=
      past_of_tokens hstop hts hout
    rwa [hbalanced.depth (Nat.le_refl 0)] at hpast

end Expr

/-- A marker with operands in it. -/
inductive Embedding where
  | openIf (cond : List Char)
  | elsif (cond : List Char)
  | openFor (var container : List Char)
  | set (var value : List Char)
  | exec (op arg : List Char)
  | call (name : List Char) (args : List (List Char × List Char))

namespace Embedding

/-- The names in a marker, of which those of arguments come last. -/
def names : Embedding → List (List Char)
  | .openIf _ | .elsif _ => []
  | .openFor var _ | .set var _ => [var]
  | .exec op _ => [op]
  | .call name args => name :: args.map (·.1)

def operands : Embedding → List (List Char)
  | .openIf e | .elsif e | .openFor _ e | .set _ e | .exec _ e => [e]
  | .call _ args => args.map (·.2)

def binding (arg : List Char × List Char) : List Char :=
  arg.1 ++ '=' :: arg.2

def bindings (args : List (List Char × List Char)) : List Char :=
  [','].intercalate (args.map binding)

def keyword : Embedding → List Char
  | .openIf .. => "if:".toList
  | .elsif .. => "elsif:".toList
  | .openFor .. => "for:".toList
  | .set .. => "set:".toList
  | .exec .. => "exec:".toList
  | .call .. => "call:".toList

/-- What follows the keyword. -/
def parts : Embedding → List Char
  | .openIf e | .elsif e => e
  | .openFor name e | .exec name e => name ++ ':' :: e
  | .set name e => name ++ '=' :: e
  | .call name args => name ++ ':' :: bindings args

/-- What stands between the opening and the closing of a marker. -/
def body (m : Embedding) : List Char :=
  m.keyword ++ m.parts

def marker (m : Embedding) : List Char :=
  '<' :: ':' :: (m.body ++ ['>'])

/-- The directive that a marker is meant as. -/
def directive : Embedding → Directive
  | .openIf cond => .openIf cond
  | .elsif cond => .elsif cond
  | .openFor var container => .openFor var container
  | .set var value => .set var value
  | .exec op arg => .exec op (some arg)
  | .call name args => .call name (some (bindings args))

structure Fits (m : Embedding) : Prop where
  names : ∀ name ∈ m.names, Text.isName name
  operands : ∀ e ∈ m.operands, Expr.Embeddable e

variable {m : Embedding}

theorem past_of_isName {name : List Char} (h : Text.isName name) {stop : Char}
    (hstop : stop ∈ delimiters) : past stop {} name = some {} :=
  past_of_not_delimiter hstop fun _ hc =>
    Expr.not_delimiter_of_isNamePart (Text.isNamePart_of_isName h hc)

theorem past_of_pair {a b : List Char} {sep stop : Char} (ha : Text.isName a)
    (hb : past stop {} b = some {}) (hstop : stop ∈ delimiters) (hsep : sep ∉ delimiters) :
    past stop {} (a ++ sep :: b) = some {} := by
  have hmiddle : past stop {} [sep] = some {} :=
    past_of_not_delimiter hstop (List.forall_mem_singleton.mpr hsep)
  exact past_trans (past_of_isName ha hstop) (past_trans hmiddle hb)

theorem past_of_binding {arg : List Char × List Char} (hname : Text.isName arg.1)
    (hvalue : Expr.Embeddable arg.2) {stop : Char} (hstop : stop = ',' ∨ stop = '>') :
    past stop {} (binding arg) = some {} := by
  refine past_of_pair hname (hvalue.passed hstop) ?_ (by decide)
  obtain rfl | rfl := hstop <;> decide

theorem past_of_bindings {args : List (List Char × List Char)}
    (h : ∀ arg ∈ args, past '>' {} (binding arg) = some {}) :
    past '>' {} (bindings args) = some {} := by
  unfold bindings
  induction args with
  | nil => rfl
  | cons arg rest ih =>
    obtain ⟨harg, hrest⟩ := List.forall_mem_cons.mp h
    cases rest with
    | nil => rwa [List.map_singleton, List.intercalate_singleton]
    | cons next more =>
      rw [List.map_cons, List.map_cons, List.intercalate_cons_cons, List.append_assoc]
      have hcomma : past '>' {} [','] = some {} := rfl
      exact past_trans harg (past_trans hcomma (ih hrest))

theorem Fits.past_parts (h : m.Fits) : past '>' {} m.parts = some {} := by
  have hmark : '>' ∈ delimiters := by decide
  have hpast {e : List Char} (he : e ∈ m.operands) : past '>' {} e = some {} :=
    (h.operands e he).passed (.inr rfl)
  have hpair {name e : List Char} {sep : Char} (hname : name ∈ m.names) (he : e ∈ m.operands)
      (hsep : sep ∉ delimiters) : past '>' {} (name ++ sep :: e) = some {} :=
    past_of_pair (h.names name hname) (hpast he) hmark hsep
  cases m with
  | openIf e | elsif e => exact hpast List.mem_cons_self
  | openFor name e | exec name e | set name e =>
    exact hpair List.mem_cons_self List.mem_cons_self (by decide)
  | call name args =>
    have hargs : past '>' {} (bindings args) = some {} := by
      refine past_of_bindings fun arg harg => past_of_binding ?_ ?_ (.inr rfl)
      · exact h.names _ (List.mem_cons_of_mem _ (List.mem_map_of_mem harg))
      · exact h.operands _ (List.mem_map_of_mem harg)
    exact past_of_pair (h.names name List.mem_cons_self) hargs hmark (by decide)

theorem Fits.markerText (h : m.Fits) (after : List Char) :
    Piece.markerText (m.body ++ '>' :: after) = some (m.body, after) := by
  have hcomment : ¬['-', '-'] <+: m.body ++ '>' :: after := by
    rintro ⟨tail, heq⟩
    cases m <;> exact absurd (List.cons.inj heq).1 (by decide)
  have hkeyword : past '>' {} m.keyword = some {} := by
    cases m <;> rfl
  rw [Piece.markerText_of_not_comment hcomment]
  exact Text.cutAtTop_of_past (past_trans hkeyword h.past_parts) after

theorem splitOnce_of_isName {name : List Char} (h : Text.isName name) (sep : Char)
    (hsep : Text.isNamePart sep = false) (rest : List Char) :
    Text.splitOnce sep (name ++ sep :: rest) = some (name, rest) := by
  refine Text.splitOnce_eq_some_iff.mpr ⟨rfl, fun hmem => ?_⟩
  rw [Text.isNamePart_of_isName h hmem] at hsep
  cases hsep

theorem splitOnce_colon {name : List Char} (h : Text.isName name) (rest : List Char) :
    Text.splitOnce ':' (name ++ ':' :: rest) = some (name, rest) :=
  splitOnce_of_isName h ':' (by decide +kernel) rest

theorem splitOnce_equals {name : List Char} (h : Text.isName name) (rest : List Char) :
    Text.splitOnce '=' (name ++ '=' :: rest) = some (name, rest) :=
  splitOnce_of_isName h '=' (by decide +kernel) rest

/-- A text that does not begin as `else` does is no `else`, with blanks after it or not. -/
theorem not_otherwise {cs : List Char} (h : cs.take 2 ≠ ['e', 'l']) :
    Text.trimEnd cs ≠ "else".toList := by
  intro heq
  obtain ⟨tail, rfl⟩ : "else".toList <+: cs := heq ▸ List.rdropWhile_prefix Text.isBlank cs
  exact h rfl

section Forms

variable {name : List Char} (h : Text.isName name) (rest : List Char)
include h

theorem directive?_for : Marker.directive? ("for:".toList ++ (name ++ ':' :: rest)) =
    some (.openFor name rest) := by
  have hform : Marker.directive? ("for:".toList ++ (name ++ ':' :: rest)) =
      (Text.splitOnce ':' (name ++ ':' :: rest)).map fun parts => .openFor parts.1 parts.2 := by
    refine if_neg (not_otherwise fun heq => ?_)
    exact absurd (List.cons.inj heq).1 (by decide)
  rw [hform, splitOnce_colon h, Option.map_some]

theorem directive?_set : Marker.directive? ("set:".toList ++ (name ++ '=' :: rest)) =
    some (.set name rest) := by
  have hform : Marker.directive? ("set:".toList ++ (name ++ '=' :: rest)) =
      (Text.splitOnce '=' (name ++ '=' :: rest)).map fun parts => .set parts.1 parts.2 := by
    refine if_neg (not_otherwise fun heq => ?_)
    exact absurd (List.cons.inj heq).1 (by decide)
  rw [hform, splitOnce_equals h, Option.map_some]

theorem optionalPart_of_isName : Marker.optionalPart (name ++ ':' :: rest) = (name, some rest) := by
  rw [Marker.optionalPart, splitOnce_colon h]

theorem directive?_call : Marker.directive? ("call:".toList ++ (name ++ ':' :: rest)) =
    some (.call name (some rest)) := by
  have hform : Marker.directive? ("call:".toList ++ (name ++ ':' :: rest)) =
      some (.call (Marker.optionalPart (name ++ ':' :: rest)).1
        (Marker.optionalPart (name ++ ':' :: rest)).2) := by
    refine if_neg (not_otherwise fun heq => ?_)
    exact absurd (List.cons.inj heq).1 (by decide)
  rw [hform, optionalPart_of_isName h]

theorem directive?_exec : Marker.directive? ("exec:".toList ++ (name ++ ':' :: rest)) =
    some (.exec name (some rest)) := by
  have hform : Marker.directive? ("exec:".toList ++ (name ++ ':' :: rest)) =
      some (.exec (Marker.optionalPart (name ++ ':' :: rest)).1
        (Marker.optionalPart (name ++ ':' :: rest)).2) := by
    refine if_neg (not_otherwise fun heq => ?_)
    exact absurd (List.cons.inj (List.cons.inj heq).2).1 (by decide)
  rw [hform, optionalPart_of_isName h]

end Forms

theorem Fits.directive? (h : m.Fits) : Marker.directive? m.body = some m.directive := by
  cases m with
  | openIf e | elsif e => rfl
  | openFor name e => exact directive?_for (h.names name List.mem_cons_self) e
  | set name e => exact directive?_set (h.names name List.mem_cons_self) e
  | exec name e => exact directive?_exec (h.names name List.mem_cons_self) e
  | call name args => exact directive?_call (h.names name List.mem_cons_self) (bindings args)

theorem Fits.classify (h : m.Fits) :
    Marker.classify .directive m.body = .ok (.directive m.directive) := by
  simp only [Marker.classify, h.directive?]

/-- The arguments of a call come out one by one, each cut behind its own name. -/
theorem Fits.argumentTexts {name : List Char} {args : List (List Char × List Char)}
    (h : (call name args).Fits) :
    (Tables.argumentTexts (some (bindings args))).map (Text.splitOnce '=') = args.map some := by
  have hname {arg : List Char × List Char} (harg : arg ∈ args) : Text.isName arg.1 :=
    h.names _ (List.mem_cons_of_mem _ (List.mem_map_of_mem harg))
  have hpast : ∀ part ∈ args.map binding, past ',' {} part = some {} := by
    intro part hpart
    obtain ⟨arg, harg, rfl⟩ := List.mem_map.mp hpart
    exact past_of_binding (hname harg) (h.operands _ (List.mem_map_of_mem harg)) (.inl rfl)
  have hshown : ∀ part ∈ args.map binding, (!Text.isAllBlank part) = true := by
    intro part hpart
    obtain ⟨arg, -, rfl⟩ := List.mem_map.mp hpart
    have hmem : '=' ∈ Text.trim (binding arg) :=
      (Text.mem_trim (by decide)).mpr (List.mem_append_right _ List.mem_cons_self)
    simp [Text.isAllBlank, List.ne_nil_of_mem hmem]
  have htexts : Tables.argumentTexts (some (bindings args)) = args.map binding := by
    cases args with
    | nil =>
      rw [Tables.argumentTexts, bindings, List.map_nil, List.intercalate_nil,
        Text.splitAtTop_of_past rfl]
      rfl
    | cons arg rest =>
      rw [Tables.argumentTexts, bindings, Text.splitAtTop_intercalate (by simp) hpast,
        List.filter_eq_self.mpr hshown]
  rw [htexts, List.map_map]
  exact List.map_congr_left fun arg harg => splitOnce_equals (hname harg) arg.2

end Embedding

/-- A marker with operands in it ends where it was meant to end, whatever comes after it, and is the
directive that it was meant as, with its operands as they were put into it. Those of a call come one
by one with their names, in their order. -/
theorem scan_embedding (m : Embedding) (h : m.Fits) (start : Nat) (afterSkip : Bool)
    (after : List Char) :
    let closed := start + Text.byteLength m.marker
    Piece.scan start afterSkip (m.marker ++ after) =
        .text [] :: .directive m.directive ⟨start, closed⟩ :: Piece.scan closed false after ∧
      ∀ name args, m = .call name args →
        (Tables.argumentTexts (some (Embedding.bindings args))).map (Text.splitOnce '=') =
          args.map some := by
  refine ⟨?_, ?_⟩
  · have hmarker : m.marker ++ after = '<' :: ':' :: (m.body ++ '>' :: after) := by
      simp [Embedding.marker]
    have hnext : Piece.nextMarker [] (m.marker ++ after) =
        ([], some (.directive, m.body ++ '>' :: after)) := by
      rw [hmarker]
      rfl
    have hlength : Text.byteLength m.marker = 2 + Text.byteLength m.body + 1 :=
      Piece.byteLength_marker .directive m.body []
    rw [Piece.scan_directive hnext (h.markerText after) h.classify, hlength, Text.byteLength_nil]
    simp only [Nat.add_zero, Nat.add_assoc]
  · rintro name args rfl
    exact h.argumentTexts

/-- A call whose arguments hold every separator, in strings or in parentheses. -/
theorem scan_embedding_call :
    let args := [("a".toList, "x.get('é\\'>,')[0]".toList),
      ("b".toList, "(i > 1) == \"=:>)\"".toList)]
    let m : Embedding := .call "row".toList args
    m.Fits ∧ Piece.scan 0 false (m.marker ++ "rest>".toList) =
        .text [] :: .directive m.directive ⟨0, 0 + Text.byteLength m.marker⟩ ::
          Piece.scan (0 + Text.byteLength m.marker) false "rest>".toList ∧
      (Tables.argumentTexts (some (Embedding.bindings args))).map (Text.splitOnce '=') =
        args.map some := by
  intro args m
  have hfits : m.Fits := ⟨by decide +kernel, by decide +kernel⟩
  obtain ⟨hscan, hargs⟩ := scan_embedding m hfits 0 false "rest>".toList
  exact ⟨hfits, hscan, hargs _ _ rfl⟩

end TemplateEngine

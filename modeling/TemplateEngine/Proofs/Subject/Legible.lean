import TemplateEngine.Proofs.Subject.Spelling
import TemplateEngine.Proofs.Syntax.Searched

/-! What is read from a text without quotes and without floating-point numbers can be spelled. -/
namespace TemplateEngine.Expr

open Grammar

/-- No string and no floating-point number. -/
def Token.IsBare : Token → Prop
  | .str _ | .float _ => False
  | .name _ | .int _ | .punct _ => True

instance : DecidablePred Token.IsBare
  | .str _ | .float _ => .isFalse id
  | .name _ | .int _ | .punct _ => .isTrue trivial

/-- A token as it can be cut from a text: no sign is part of a number. -/
def Token.IsCut : Token → Prop
  | .name s => IsWord s
  | .int n => 0 ≤ n.toInt
  | .float _ | .str _ | .punct _ => True

theorem isCut_of_integer {whole : List Char} (hwhole : ∀ d ∈ whole, d.isDigit) {t : Token}
    (h : readNumber.integer whole = .ok t) : t.IsCut := by
  unfold readNumber.integer at h
  split at h
  · next n hn =>
    cases h
    obtain ⟨i, hi, hn⟩ := Option.bind_eq_some_iff.mp hn
    rw [Decimal.toInt64?_eq_some_iff] at hn
    change 0 ≤ n.toInt
    rw [hn]
    exact Decimal.nonneg_of_readInt? hwhole hi
  · cases h

theorem isCut_of_readNumber {cs after : List Char} {t : Token}
    (h : readNumber cs = (.ok t, after)) : t.IsCut := by
  have hwhole : ∀ d ∈ cs.takeWhile (·.isDigit), d.isDigit := fun d hd =>
    List.mem_takeWhile_imp hd
  unfold readNumber at h
  dsimp only at h
  split at h
  · split at h
    · cases h
      trivial
    · exact isCut_of_integer hwhole (Prod.mk.inj h).1
  · exact isCut_of_integer hwhole (Prod.mk.inj h).1

theorem isCut_of_readToken {c : Char} {rest after : List Char} {t : Token}
    (h : readToken c rest = .ok (t, after)) : t.IsCut := by
  unfold readToken at h
  split at h
  · obtain ⟨_, hnumber, heq⟩ := map_eq_ok h
    cases heq
    exact isCut_of_readNumber (Prod.ext hnumber rfl)
  · split at h
    · next hname =>
      cases h
      exact ⟨c, _, String.toList_ofList, hname, fun d hd => List.mem_takeWhile_imp hd⟩
    · split at h
      · split at h
        · cases h
          trivial
        · cases h
      · split at h
        · cases h
          trivial
        · cases h

theorem isCut_of_tokens {cs : List Char} {ts : List Token} (h : tokens cs = .ok ts) :
    ∀ t ∈ ts, t.IsCut := by
  fun_induction tokens cs generalizing ts with
  | case1 =>
    cases h
    exact List.forall_mem_nil _
  | case2 => cases h
  | case3 cs c rest hcs t after hread hlt ih =>
    obtain ⟨more, hmore, rfl⟩ := map_eq_ok h
    exact List.forall_mem_cons.mpr ⟨isCut_of_readToken hread, ih hmore⟩

theorem neg_ne_minValue {n : Int64} (h : n ≠ Int64.minValue) : -n ≠ Int64.minValue := by
  intro hneg
  refine h ?_
  rw [← Int64.neg_neg (a := n), hneg]
  rfl

theorem ne_minValue_of_nonneg {n : Int64} (h : 0 ≤ n.toInt) : n ≠ Int64.minValue := by
  rintro rfl
  exact absurd h (by decide)

/-! A tree is legible if its tokens are. -/

/-- The tokens of a text without quotes and without floating-point numbers. -/
def Legible (ts : List Token) : Prop :=
  ∀ t ∈ ts, t.IsBare ∧ t.IsCut

theorem Legible.of_append {ts us : List Token} (h : Legible (ts ++ us)) : Legible ts ∧ Legible us :=
  List.forall_mem_append.mp h

theorem Legible.of_cons {t : Token} {ts : List Token} (h : Legible (t :: ts)) :
    (t.IsBare ∧ t.IsCut) ∧ Legible ts :=
  List.forall_mem_cons.mp h

theorem Grammar.Literal.legible {t : Token} {v : Value} (h : Literal t v)
    (ht : t.IsBare ∧ t.IsCut) :
    IsLiteral v ∧ (Head.literal v).Legible := by
  cases h with
  | int n => exact ⟨ne_minValue_of_nonneg ht.2, ht.2⟩
  | float | str => exact ht.1.elim
  | true | false | null => exact ⟨trivial, trivial⟩

theorem Grammar.Identifier.legible {t : Token} {head : Head} (h : Identifier t head)
    (ht : t.IsCut) :
    head.Legible ∧ ∀ v, head ≠ .literal v := by
  cases h with
  | this => exact ⟨trivial, nofun⟩
  | name hs => exact ⟨⟨ht, hs⟩, nofun⟩

mutual

theorem Grammar.Layered.legible {layers : List Layer} {ts : List Token} {ast : Ast} :
    Layered layers ts ast → Legible ts → ast.Legible
  | .prefixed h, hts => h.legible hts
  | .operators h hmore, hts => hmore.legible (h.legible hts.of_append.1) hts.of_append.2

theorem Grammar.Continued.legible {l : Layer} {tighter : List Layer} {ts : List Token}
    {left ast : Ast} : Continued l tighter left ts ast → left.Legible → Legible ts → ast.Legible
  | .done, hleft, _ => hleft
  | .operator _ h hmore, hleft, hts =>
    have hts := hts.of_cons.2.of_append
    hmore.legible ⟨hleft, h.legible hts.1⟩ hts.2

theorem Grammar.Prefixed.legible {ts : List Token} {ast : Ast} :
    Prefixed ts ast → Legible ts → ast.Legible
  | .not h, hts => ⟨nofun, h.legible hts.of_cons.2⟩
  | .negInt h, hts => neg_ne_minValue (h.legible hts.of_cons.2)
  | .negFloat h, hts => (h.legible hts.of_cons.2).elim
  | .neg h hnumber, hts => ⟨fun _ => hnumber, h.legible hts.of_cons.2⟩
  | .postfixed h, hts => h.legible hts

theorem Grammar.Postfixed.legible {ts : List Token} {ast : Ast} :
    Postfixed ts ast → Legible ts → ast.Legible
  | .parens h, hts => h.legible hts.of_cons.2.of_append.1
  | .constant h, hts => (h.legible hts.of_cons.1).1
  | .literal h hmore, hts => ⟨(h.legible hts.of_cons.1).2, nofun, hmore.legible hts.of_cons.2⟩
  | .identifier h hmore, hts =>
    have hhead := h.legible hts.of_cons.1.2
    ⟨hhead.1, fun _ => hhead.2, hmore.legible hts.of_cons.2⟩

theorem Grammar.Accessors.legible {ts : List Token} {more : List Step} :
    Accessors ts more → Legible ts → stepsLegible more
  | .nil, _ => trivial
  | .cons h hmore, hts => ⟨h.legible hts.of_append.1, hmore.legible hts.of_append.2⟩

theorem Grammar.Accessor.legible {ts : List Token} {s : Step} :
    Accessor ts s → Legible ts → s.Legible
  | .field _, hts => hts.of_cons.2.of_cons.1.2
  | .call _, hts => ⟨hts.of_cons.2.of_cons.1.2, trivial⟩
  | .callWith h, hts =>
    have hname := hts.of_cons.2.of_cons
    ⟨hname.1.2, h.legible hname.2.of_cons.2.of_append.1⟩
  | .index n, hts => ne_minValue_of_nonneg hts.of_cons.2.of_cons.1.2
  | .indexFromEnd n, hts =>
    neg_ne_minValue (ne_minValue_of_nonneg hts.of_cons.2.of_cons.2.of_cons.1.2)
  | .key _, hts => hts.of_cons.2.of_cons.1.1.elim

theorem Grammar.Arguments.legible {ts : List Token} {args : List Ast} :
    Arguments ts args → Legible ts → argumentsLegible args
  | .last h, hts => ⟨h.legible hts, trivial⟩
  | .cons h hmore, hts =>
    have hts := hts.of_append
    ⟨h.legible hts.1, hmore.legible hts.2.of_cons.2⟩

end

end TemplateEngine.Expr

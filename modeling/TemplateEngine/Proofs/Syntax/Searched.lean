import Mathlib.Data.List.TakeWhile
import TemplateEngine.Compile.Basic
import TemplateEngine.Proofs.Syntax.Brackets
import TemplateEngine.Proofs.Text.Passed

/-! Searching the text of an operand. The search for the end of a marker and the splitting of
arguments keep count of quotes and brackets on their own; they agree with the tokens about where a
string ends and how many brackets are open. -/
namespace TemplateEngine.Expr

open Text (Nesting)
open Text.Nesting (delimiters past past_trans past_of_not_delimiter)

/-- A token outside of string literals that has this character in it. -/
def Token.Shows (c : Char) : Token → Prop
  | .punct p => c ∈ p.symbol.toList
  | _ => False

instance (c : Char) : DecidablePred (Token.Shows c)
  | .punct p => inferInstanceAs (Decidable (c ∈ p.symbol.toList))
  | .name _ | .int _ | .float _ | .str _ => .isFalse id

theorem not_delimiter_of {p : Char → Bool} (hp : delimiters.any p = false) {c : Char} (h : p c) :
    c ∉ delimiters := by
  intro hc
  rw [List.any_eq_true.mpr ⟨c, hc, h⟩] at hp
  cases hp

theorem not_delimiter_of_isNamePart {c : Char} : Text.isNamePart c → c ∉ delimiters :=
  not_delimiter_of (by decide +kernel)

theorem not_delimiter_of_isNameStart {c : Char} : Text.isNameStart c → c ∉ delimiters :=
  not_delimiter_of (by decide +kernel)

theorem not_delimiter_of_isBlank {c : Char} : Text.isBlank c → c ∉ delimiters :=
  not_delimiter_of (by decide)

theorem not_delimiter_of_isDigit {c : Char} : c.isDigit → c ∉ delimiters :=
  not_delimiter_of (by decide)

section

variable {stop : Char} {depth : Nat}

/-- A search passes a string literal as a whole, whichever characters are escaped in it. -/
theorem past_of_readString {mark : Char} {seen cs s after : List Char}
    (h : readString mark seen cs = some (s, after)) :
    ∃ used, cs = used ++ after ∧ past stop ⟨depth, some mark, false⟩ used = some { depth } := by
  fun_induction readString mark seen cs with
  | case1 => cases h
  | case2 seen c rest ih =>
    obtain ⟨used, rfl, hused⟩ := ih h
    exact ⟨'\\' :: c :: used, rfl, by simpa [past, Nesting.isTop, Nesting.step] using hused⟩
  | case3 => cases h
  | case4 seen rest hslash =>
    cases h
    exact ⟨[mark], rfl, by simp [past, Nesting.isTop, Nesting.step, *]⟩
  | case5 seen c rest _ hslash hmark ih =>
    obtain ⟨used, rfl, hused⟩ := ih h
    exact ⟨c :: used, rfl, by simpa [past, Nesting.isTop, Nesting.step, hslash, hmark] using hused⟩

theorem isPlain_of_integer {whole : List Char} {t : Token} (h : readNumber.integer whole = .ok t) :
    t.isPlain := by
  unfold readNumber.integer at h
  split at h
  · cases h
    rfl
  · cases h

/-- A number is made of digits and points. -/
theorem exists_of_readNumber {cs after : List Char} {t : Token}
    (h : readNumber cs = (.ok t, after)) :
    t.isPlain ∧ ∃ used, cs = used ++ after ∧ ∀ d ∈ used, d.isDigit ∨ d = '.' := by
  have hdigits {cs : List Char} : ∀ d ∈ cs.takeWhile (·.isDigit), d.isDigit ∨ d = '.' :=
    fun d hd => .inl (List.mem_takeWhile_imp hd)
  have hwhole (hinteger : readNumber.integer (cs.takeWhile (·.isDigit)) = .ok t)
      (hafter : cs.dropWhile (·.isDigit) = after) :
      t.isPlain ∧ ∃ used, cs = used ++ after ∧ ∀ d ∈ used, d.isDigit ∨ d = '.' := by
    refine ⟨isPlain_of_integer hinteger, cs.takeWhile (·.isDigit), ?_, hdigits⟩
    rw [← hafter, List.takeWhile_append_dropWhile]
  unfold readNumber at h
  dsimp only at h
  split at h
  · next d rest hrest =>
    split at h
    · cases h
      refine ⟨rfl, cs.takeWhile (·.isDigit) ++ '.' :: (d :: rest).takeWhile (·.isDigit), ?_, ?_⟩
      · rw [List.append_assoc, List.cons_append, List.takeWhile_append_dropWhile, ← hrest,
          List.takeWhile_append_dropWhile]
      · exact List.forall_mem_append.mpr
          ⟨hdigits, List.forall_mem_cons.mpr ⟨.inr rfl, hdigits⟩⟩
    · obtain ⟨hinteger, hafter⟩ := Prod.mk.inj h
      exact hwhole hinteger hafter
  · obtain ⟨hinteger, hafter⟩ := Prod.mk.inj h
    exact hwhole hinteger hafter

theorem eq_of_read? {cs after : List Char} {p : Punct} (h : Punct.read? cs = some (p, after)) :
    cs = p.symbol.toList ++ after := by
  unfold Punct.read? at h
  split at h <;> cases h <;> rfl

theorem past_of_symbol {p : Punct} (h : depth = 0 → stop ∉ p.symbol.toList) :
    past stop { depth } p.symbol.toList =
      some { depth := (Token.punct p).depthAfter depth } := by
  cases p <;> cases depth <;>
    simp_all [past, Nesting.isTop, Nesting.step, Punct.symbol, Token.depthAfter,
      eq_comm (a := stop)]

/-- The first token of a text leads a search on, unless it shows the character searched for outside
all brackets. -/
theorem past_of_readToken (hstop : stop = ',' ∨ stop = '>') {c : Char} {rest after : List Char}
    {t : Token} (h : readToken c rest = .ok (t, after)) (ht : depth = 0 → ¬t.Shows stop) :
    ∃ used, c :: rest = used ++ after ∧
      past stop { depth } used = some { depth := t.depthAfter depth } := by
  have hdelimiter : stop ∈ delimiters := by
    obtain rfl | rfl := hstop <;> decide
  have hplain {used : List Char} (ht : t.isPlain) (hused : ∀ d ∈ used, d ∉ delimiters) :
      past stop { depth } used = some { depth := t.depthAfter depth } := by
    rw [Token.depthAfter_of_isPlain ht]
    exact past_of_not_delimiter hdelimiter hused
  unfold readToken at h
  split at h
  · next hdigit =>
    dsimp only at h
    obtain ⟨_, hnumber, heq⟩ := map_eq_ok h
    cases heq
    obtain ⟨ht, used, hused, hdigits⟩ := exists_of_readNumber (Prod.ext hnumber rfl)
    refine ⟨used, hused, hplain ht fun d hd => ?_⟩
    obtain hd | rfl := hdigits d hd
    · exact not_delimiter_of_isDigit hd
    · decide
  · split at h
    · next hname =>
      cases h
      refine ⟨c :: rest.takeWhile Text.isNamePart, by simp, hplain rfl ?_⟩
      exact List.forall_mem_cons.mpr ⟨not_delimiter_of_isNameStart hname,
        fun d hd => not_delimiter_of_isNamePart (List.mem_takeWhile_imp hd)⟩
    · split at h
      · next hquote =>
        split at h
        · next s tail hs =>
          cases h
          obtain ⟨used, rfl, hused⟩ : ∃ used, rest = used ++ after ∧
              past stop ⟨depth, some c, false⟩ used = some { depth } := past_of_readString hs
          have hne : c ≠ stop := by
            rintro rfl
            obtain rfl | rfl := hstop <;> simp at hquote
          have hopen : Nesting.step { depth } c = ⟨depth, some c, false⟩ := by
            simp [Nesting.step, hquote]
          refine ⟨c :: used, rfl, ?_⟩
          rw [past, if_neg (by simp [hne]), hopen]
          exact hused
        · cases h
      · split at h
        · next p tail hp =>
          cases h
          exact ⟨_, eq_of_read? hp, past_of_symbol ht⟩
        · cases h

/-- On the text of some tokens a search counts the brackets among the tokens, and stops at most at a
token outside all of them. -/
theorem past_of_tokens (hstop : stop = ',' ∨ stop = '>') {cs : List Char} {ts : List Token}
    (h : tokens cs = .ok ts) (hts : ∀ t ∈ outermost depth ts, ¬t.Shows stop) :
    past stop { depth } cs = some { depth := ts.foldl Token.depthAfter depth } := by
  have hdelimiter : stop ∈ delimiters := by
    obtain rfl | rfl := hstop <;> decide
  have hblank (cs : List Char) (depth : Nat) :
      past stop { depth } (cs.takeWhile Text.isBlank) = some { depth } :=
    past_of_not_delimiter hdelimiter fun c hc =>
      not_delimiter_of_isBlank (List.mem_takeWhile_imp hc)
  fun_induction tokens cs generalizing ts depth with
  | case1 cs hcs =>
    cases h
    have hall : cs.takeWhile Text.isBlank = cs := by
      have hsplit := List.takeWhile_append_dropWhile (p := Text.isBlank) (l := cs)
      rwa [hcs, List.append_nil] at hsplit
    rw [← hall]
    exact hblank cs depth
  | case2 => cases h
  | case3 cs c rest hcs t after hread hlt ih =>
    obtain ⟨more, hmore, rfl⟩ := map_eq_ok h
    have hfirst : depth = 0 → ¬t.Shows stop := fun hdepth =>
      hts t (mem_outermost_cons.mpr (.inl ⟨hdepth, rfl⟩))
    obtain ⟨used, hused, hpast⟩ := past_of_readToken hstop hread hfirst
    have hmore := ih hmore fun u hu => hts u (mem_outermost_cons.mpr (.inr hu))
    rw [← List.takeWhile_append_dropWhile (p := Text.isBlank) (l := cs), hcs, hused]
    exact past_trans (hblank cs depth) (past_trans hpast hmore)

end

end TemplateEngine.Expr

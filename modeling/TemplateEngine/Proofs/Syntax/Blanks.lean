import Mathlib.Data.List.DropRight
import TemplateEngine.Expr.Parse
import TemplateEngine.Proofs.Text.Cut

/-! Blanks around an operand. A token ends where blanks begin, so an operand is read the same with
blanks around it and without. -/
namespace TemplateEngine.Expr

/-- What holds of no blank character does not hold of `b`. -/
theorem eq_false_of_isBlank {p : Char → Bool} (hp : ∀ n ∈ Text.blankCodes, p (Char.ofNat n) = false)
    {b : Char} (h : Text.isBlank b) : p b = false := by
  rw [← Char.ofNat_toNat b]
  exact hp _ (Text.mem_blankCodes h)

theorem ne_of_isBlank {b c : Char} (h : Text.isBlank b) (hc : Text.isBlank c = false) : b ≠ c := by
  rintro rfl
  rw [hc] at h
  cases h

theorem not_isDigit_of_isBlank {b : Char} : Text.isBlank b → b.isDigit = false :=
  eq_false_of_isBlank (by decide +kernel)

section

variable {bs : List Char} (hbs : ∀ b ∈ bs, Text.isBlank b)
include hbs

theorem while_append_blanks {p : Char → Bool} (hp : ∀ b, Text.isBlank b → p b = false)
    (cs : List Char) :
    (cs ++ bs).takeWhile p = cs.takeWhile p ∧ (cs ++ bs).dropWhile p = cs.dropWhile p ++ bs := by
  induction cs with
  | nil =>
    cases bs with
    | nil => exact ⟨rfl, rfl⟩
    | cons b bs => simp [hp b (hbs b List.mem_cons_self)]
  | cons c cs ih =>
    rw [List.cons_append, List.takeWhile_cons, List.dropWhile_cons, List.takeWhile_cons,
      List.dropWhile_cons]
    split
    · exact ⟨congrArg (c :: ·) ih.1, ih.2⟩
    · exact ⟨rfl, rfl⟩

theorem readString_blanks {mark : Char} (hmark : Text.isBlank mark = false) (seen : List Char) :
    readString mark seen bs = none := by
  induction bs generalizing seen with
  | nil => rfl
  | cons b bs ih =>
    obtain ⟨hb, hbs⟩ := List.forall_mem_cons.mp hbs
    have hslash : b ≠ '\\' := ne_of_isBlank hb (by decide)
    rw [readString, if_neg hslash, if_neg (ne_of_isBlank hb hmark), ih hbs]
    exact fun _ _ h => absurd h hslash

theorem readString_append_blanks {mark : Char} (hmark : Text.isBlank mark = false)
    (seen cs : List Char) :
    readString mark seen (cs ++ bs) = (readString mark seen cs).map fun r => (r.1, r.2 ++ bs) := by
  fun_induction readString mark seen cs with
  | case1 seen => exact readString_blanks hbs hmark seen
  | case2 seen c rest ih =>
    rw [List.cons_append, List.cons_append, readString, ih]
  | case3 seen rest hrest =>
    obtain rfl : rest = [] := by
      cases rest with
      | nil => rfl
      | cons c rest => exact absurd rfl (hrest c rest rfl)
    cases bs with
    | nil => rfl
    | cons b bs =>
      -- The backslash takes the first blank, and the other blanks close no string.
      rw [List.cons_append, List.nil_append, readString,
        readString_blanks (List.forall_mem_cons.mp hbs).2 hmark]
      rfl
  | case4 seen rest hrest hslash =>
    rw [List.cons_append, readString, if_neg hslash, if_pos rfl, Option.map_some]
    exact fun _ _ h => absurd h hslash
  | case5 seen c rest hrest hslash hne ih =>
    rw [List.cons_append, readString, if_neg hslash, if_neg hne, ih]
    exact fun _ _ h => absurd h hslash

theorem readNumber_append_blanks (cs : List Char) :
    readNumber (cs ++ bs) = ((readNumber cs).1, (readNumber cs).2 ++ bs) := by
  obtain ⟨htake, hdrop⟩ := while_append_blanks hbs (fun _ => not_isDigit_of_isBlank) cs
  unfold readNumber
  dsimp only
  rw [htake, hdrop]
  generalize cs.dropWhile (·.isDigit) = rest
  cases rest with
  | nil =>
    cases bs with
    | nil => rfl
    | cons b bs =>
      have hb : b ≠ '.' := ne_of_isBlank (hbs b List.mem_cons_self) (by decide)
      simp [hb]
  | cons c rest =>
    by_cases hc : c = '.'
    · subst hc
      cases rest with
      | nil =>
        cases bs with
        | nil => rfl
        | cons b bs => simp [not_isDigit_of_isBlank (hbs b List.mem_cons_self)]
      | cons d after =>
        obtain ⟨htake, hdrop⟩ :=
          while_append_blanks hbs (fun _ => not_isDigit_of_isBlank) (d :: after)
        simp only [List.cons_append] at htake hdrop ⊢
        rw [htake, hdrop]
        split <;> rfl
    · simp [hc]

end

namespace Punct

/-- The characters that punctuation begins with. -/
def firsts : List Char :=
  ['=', '!', '<', '>', '&', '|', '.', ',', '[', ']', '(', ')', '-', '+', '*', '/', '%']

/-- The characters that punctuation of two characters ends with. -/
def seconds : List Char :=
  ['=', '&', '|']

variable {c d : Char}

theorem read?_eq_none (h : c ∉ firsts) (rest : List Char) : read? (c :: rest) = none := by
  unfold read?
  split
  all_goals first
    | rfl
    | next heq => exact absurd (by rw [(List.cons.inj heq).1]; decide) h

theorem read?_of_not_second (hd : d ∉ seconds) (rest : List Char) :
    read? (c :: d :: rest) = (read? [c]).map fun r => (r.1, r.2 ++ d :: rest) := by
  by_cases hc : c ∈ firsts
  · simp only [seconds, List.mem_cons, List.not_mem_nil, or_false, not_or] at hd
    simp only [firsts, List.mem_cons, List.not_mem_nil, or_false] at hc
    rcases hc with rfl | rfl | rfl | rfl | rfl | rfl | hc
    iterate 6 simp [read?, hd]
    rcases hc with rfl | rfl | rfl | rfl | rfl | rfl | rfl | rfl | rfl | rfl | rfl <;> rfl
  · rw [read?_eq_none hc, read?_eq_none hc, Option.map_none]

theorem read?_of_second (hd : d ∈ seconds) (rest more : List Char) :
    read? (c :: d :: (rest ++ more)) =
      (read? (c :: d :: rest)).map fun r => (r.1, r.2 ++ more) := by
  by_cases hc : c ∈ firsts
  · simp only [seconds, List.mem_cons, List.not_mem_nil, or_false] at hd
    simp only [firsts, List.mem_cons, List.not_mem_nil, or_false] at hc
    obtain rfl | rfl | rfl := hd <;>
      rcases hc with rfl | rfl | rfl | rfl | rfl | rfl | rfl | rfl | rfl | rfl | rfl | rfl | rfl |
        rfl | rfl | rfl | rfl <;> rfl
  · rw [read?_eq_none hc, read?_eq_none hc, Option.map_none]

/-- No blank completes punctuation. -/
theorem read?_append_blanks {bs : List Char} (hbs : ∀ b ∈ bs, Text.isBlank b) (c : Char)
    (rest : List Char) :
    read? (c :: (rest ++ bs)) = (read? (c :: rest)).map fun r => (r.1, r.2 ++ bs) := by
  cases rest with
  | nil =>
    cases bs with
    | nil => simp
    | cons b bs =>
      have hb : b ∉ seconds := by
        intro hmem
        have hseconds : seconds.all (!Text.isBlank ·) := by decide
        have hblank : Text.isBlank b = false := by simpa using List.all_eq_true.mp hseconds b hmem
        exact ne_of_isBlank (hbs b List.mem_cons_self) hblank rfl
      exact read?_of_not_second hb bs
  | cons d rest =>
    rw [List.cons_append]
    by_cases hd : d ∈ seconds
    · exact read?_of_second hd rest bs
    · simp [read?_of_not_second hd, Function.comp_def]

end Punct

theorem tokens_eq (cs : List Char) :
    tokens cs =
      match cs.dropWhile Text.isBlank with
      | [] => .ok []
      | c :: rest => readToken c rest >>= fun x => (tokens x.2).map (x.1 :: ·) := by
  rw [tokens]
  split
  · next hcs => rw [hcs]
  · next c rest hcs =>
    simp only [hcs]
    split
    · next hread =>
      simp only [hread]
      rfl
    · next hread =>
      simp only [hread]
      rfl

theorem tokens_of_isBlank {c : Char} (h : Text.isBlank c) (cs : List Char) :
    tokens (c :: cs) = tokens cs := by
  rw [tokens_eq, tokens_eq cs, List.dropWhile_cons, if_pos h]

theorem tokens_of_not_isBlank {c : Char} (h : ¬Text.isBlank c) (cs : List Char) :
    tokens (c :: cs) = (readToken c cs >>= fun x => (tokens x.2).map (x.1 :: ·)) := by
  rw [tokens_eq, List.dropWhile_cons, if_neg h]

section

variable {bs : List Char} (hbs : ∀ b ∈ bs, Text.isBlank b)
include hbs

theorem readToken_append_blanks (c : Char) (rest : List Char) :
    readToken c (rest ++ bs) = (readToken c rest).map fun r => (r.1, r.2 ++ bs) := by
  unfold readToken
  split
  · rw [← List.cons_append, readNumber_append_blanks hbs]
    dsimp only
    cases (readNumber (c :: rest)).1 <;> rfl
  · split
    · obtain ⟨htake, hdrop⟩ :=
        while_append_blanks hbs (fun _ => Text.not_isNamePart_of_isBlank) rest
      rw [htake, hdrop]
      rfl
    · split
      · next hquote =>
        have hmark : Text.isBlank c = false := by
          obtain rfl | rfl := hquote <;> decide
        rw [readString_append_blanks hbs hmark]
        cases readString c [] rest <;> rfl
      · rw [Punct.read?_append_blanks hbs]
        cases Punct.read? (c :: rest) <;> rfl

theorem tokens_append_blanks (cs : List Char) : tokens (cs ++ bs) = tokens cs := by
  induction hn : cs.length using Nat.strongRecOn generalizing cs with
  | ind n ih =>
    cases cs with
    | nil =>
      have hall : bs.dropWhile Text.isBlank = [] := List.dropWhile_eq_nil_iff.mpr hbs
      rw [List.nil_append, tokens_eq, hall, tokens_eq]
      rfl
    | cons c cs =>
      rw [List.length_cons] at hn
      rw [List.cons_append]
      by_cases hc : Text.isBlank c
      · rw [tokens_of_isBlank hc, tokens_of_isBlank hc, ih cs.length (by omega) cs rfl]
      · rw [tokens_of_not_isBlank hc, tokens_of_not_isBlank hc, readToken_append_blanks hbs]
        cases hread : readToken c cs with
        | error e => rfl
        | ok x =>
          have hlt : x.2.length < cs.length + 1 := readToken_length hread
          have htokens := ih x.2.length (by omega) x.2 rfl
          change (tokens (x.2 ++ bs)).map _ = (tokens x.2).map _
          rw [htokens]

end

theorem tokens_trim (cs : List Char) : tokens (Text.trim cs) = tokens cs := by
  have hstart : tokens (Text.trimStart cs) = tokens cs := by
    rw [tokens_eq, tokens_eq cs, Text.trimStart, List.dropWhile_idempotent]
  have hend (cs : List Char) : tokens (Text.trimEnd cs) = tokens cs := by
    have hblanks : ∀ b ∈ (cs.reverse.takeWhile Text.isBlank).reverse, Text.isBlank b :=
      fun b hb => List.mem_takeWhile_imp (List.mem_reverse.mp hb)
    rw [← tokens_append_blanks hblanks, Text.trimEnd, ← List.reverse_append,
      List.takeWhile_append_dropWhile, List.reverse_reverse]
  rw [Text.trim, hend, hstart]

/-- Blanks around an operand change nothing in how it is read. -/
theorem parse_trim (cs : List Char) : parse (Text.trim cs) = parse cs := by
  rw [parse, parse, tokens_trim]

end TemplateEngine.Expr

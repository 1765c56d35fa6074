import TemplateEngine.Command.Binding
import TemplateEngine.Proofs.Command.Numerals
import TemplateEngine.Proofs.Plain.Source

/-! Values and bindings of the command line. A text is read by the first form that it has: a whole
number, another number, a word, a text in quotes. A text without any of them stands for itself. -/
namespace TemplateEngine

namespace Text

/-- What is left of a text without the blanks at its ends. -/
structure Trimmed (cs core : List Char) : Prop where
  parts : ∃ before after, cs = before ++ core ++ after ∧ (∀ c ∈ before, isBlank c) ∧
    ∀ c ∈ after, isBlank c
  first : ∀ c ∈ core.head?, isBlank c = false
  last : ∀ c ∈ core.getLast?, isBlank c = false

theorem head?_dropWhile_isBlank (cs : List Char) :
    ∀ c ∈ (cs.dropWhile isBlank).head?, isBlank c = false := by
  intro c hc
  have := List.head?_dropWhile_not isBlank cs
  rw [hc] at this
  simpa using this

theorem trimmed_trim (cs : List Char) : Trimmed cs (trim cs) := by
  have hstart : cs.takeWhile isBlank ++ trimStart cs = cs := List.takeWhile_append_dropWhile
  have hend : trim cs ++ ((trimStart cs).reverse.takeWhile isBlank).reverse = trimStart cs := by
    rw [trim, trimEnd, ← List.reverse_append, List.takeWhile_append_dropWhile,
      List.reverse_reverse]
  refine ⟨⟨cs.takeWhile isBlank, ((trimStart cs).reverse.takeWhile isBlank).reverse, ?_, ?_, ?_⟩,
    ?_, ?_⟩
  · rw [List.append_assoc, hend, hstart]
  · exact fun c => List.mem_takeWhile_imp
  · exact fun c hc => List.mem_takeWhile_imp (List.mem_reverse.mp hc)
  · intro c hc
    apply head?_dropWhile_isBlank cs c
    rw [← trimStart, ← hend, List.head?_append, hc]
    rfl
  · intro c hc
    rw [trim, trimEnd, List.getLast?_reverse] at hc
    exact head?_dropWhile_isBlank _ c hc

theorem isAllBlank_iff {cs : List Char} : isAllBlank cs ↔ ∀ c ∈ cs, isBlank c := by
  rw [isAllBlank_eq, List.isEmpty_iff, trimStart, List.dropWhile_eq_nil_iff]

end Text

namespace Binding

open Decimal (IntegerText FloatText readFloat?)

def IsQuote (c : Char) : Prop :=
  c = '"' ∨ c = '\''

/-- A number that is not whole, or not written as a whole one. -/
def IsNumberText (cs : List Char) : Prop :=
  FloatText cs ∧ ∃ d ∈ cs, d.isDigit

/-- The words for values. -/
inductive IsWord : List Char → Value → Prop where
  | true : IsWord "true".toList (.bool true)
  | false : IsWord "false".toList (.bool false)
  | null : IsWord "null".toList .null

/-- A text between two quotes of one kind. -/
def IsQuoted (cs : List Char) : Prop :=
  ∃ q inner, IsQuote q ∧ cs = q :: (inner ++ [q])

/-- A text that has no form by which it would stand for anything else. -/
structure IsRaw (cs : List Char) : Prop where
  integer : ∀ n : Int64, ¬IntegerText cs n.toInt
  number : ¬IsNumberText cs
  word : ∀ v, ¬IsWord cs v
  quoted : ¬IsQuoted cs

theorem readNumber?_eq_some_iff {cs : List Char} {x : Float} :
    readNumber? cs = some x ↔ IsNumberText cs ∧ readFloat? cs = some x := by
  rw [readNumber?, Option.ite_none_right_eq_some, IsNumberText, ← Decimal.isSome_readFloat?_iff,
    List.any_eq_true]
  constructor
  · rintro ⟨hdigit, hread⟩
    exact ⟨⟨by rw [hread]; rfl, hdigit⟩, hread⟩
  · rintro ⟨⟨-, hdigit⟩, hread⟩
    exact ⟨hdigit, hread⟩

theorem readNumber?_eq_none_iff {cs : List Char} : readNumber? cs = none ↔ ¬IsNumberText cs := by
  rw [Option.eq_none_iff_forall_ne_some]
  constructor
  · intro h hnumber
    obtain ⟨x, hx⟩ := Option.isSome_iff_exists.mp (Decimal.isSome_readFloat?_iff.mpr hnumber.1)
    exact h x (readNumber?_eq_some_iff.mpr ⟨hnumber, hx⟩)
  · exact fun h x hx => h (readNumber?_eq_some_iff.mp hx).1

theorem readInt64?_eq_none_iff {cs : List Char} :
    Decimal.readInt64? cs = none ↔ ∀ n : Int64, ¬IntegerText cs n.toInt := by
  simp only [Option.eq_none_iff_forall_ne_some, ne_eq, Decimal.readInt64?_eq_some_iff]

theorem readWord?_eq_some_iff {cs : List Char} {v : Value} :
    readWord? cs = some v ↔ IsWord cs v := by
  constructor
  · intro h
    unfold readWord? at h
    split at h <;> cases h
    · exact .true
    · exact .false
    · exact .null
  · intro h
    cases h <;> rfl

theorem readWord?_eq_none_iff {cs : List Char} : readWord? cs = none ↔ ∀ v, ¬IsWord cs v := by
  simp only [Option.eq_none_iff_forall_ne_some, ne_eq, readWord?_eq_some_iff]

theorem unquote?_eq_some_iff {quote : Char} {cs inner : List Char} :
    unquote? quote cs = some inner ↔ cs = quote :: (inner ++ [quote]) := by
  constructor
  · intro h
    cases cs with
    | nil => cases h
    | cons c rest =>
      rw [unquote?, Option.ite_none_right_eq_some] at h
      obtain ⟨⟨rfl, hlast⟩, hinner⟩ := h
      obtain ⟨init, rfl⟩ := List.getLast?_eq_some_iff.mp hlast
      rw [List.dropLast_concat, Option.some.injEq] at hinner
      rw [hinner]
  · rintro rfl
    exact unquote?_enclosed quote inner

section Forms

variable {cs : List Char}

theorem readValue_integer {n : Int64} (h : IntegerText cs n.toInt) : readValue cs = .int n := by
  rw [readValue, Decimal.readInt64?_eq_some_iff.mpr h]
  rfl

variable (hinteger : ∀ n : Int64, ¬IntegerText cs n.toInt)
include hinteger

theorem readValue_number (h : IsNumberText cs) :
    ∃ x, readFloat? cs = some x ∧ readValue cs = .float x := by
  obtain ⟨x, hx⟩ := Option.isSome_iff_exists.mp (Decimal.isSome_readFloat?_iff.mpr h.1)
  refine ⟨x, hx, ?_⟩
  rw [readValue, readInt64?_eq_none_iff.mpr hinteger, readNumber?_eq_some_iff.mpr ⟨h, hx⟩]
  rfl

variable (hnumber : ¬IsNumberText cs)
include hnumber

/-- What is no number and no word is a string. -/
theorem readValue_text (hword : ∀ v, ¬IsWord cs v) : readValue cs =
    .str (String.ofList ((unquote? '"' cs <|> unquote? '\'' cs).getD cs)) := by
  rw [readValue, readInt64?_eq_none_iff.mpr hinteger, readNumber?_eq_none_iff.mpr hnumber,
    readWord?_eq_none_iff.mpr hword]
  rfl

end Forms

theorem IsRaw.readValue {cs : List Char} (h : IsRaw cs) :
    readValue cs = .str (String.ofList cs) := by
  have hnone {q : Char} (hq : IsQuote q) : unquote? q cs = none := by
    rw [Option.eq_none_iff_forall_ne_some]
    exact fun inner hinner => h.quoted ⟨q, inner, hq, unquote?_eq_some_iff.mp hinner⟩
  rw [readValue_text h.integer h.number h.word, hnone (.inl rfl), hnone (.inr rfl)]
  rfl

/-- No number and no word begins with a quote. -/
theorem readValue_quoted {q : Char} (hq : IsQuote q) (inner : List Char) :
    readValue (q :: (inner ++ [q])) = .str (String.ofList inner) := by
  have hinteger : ∀ n : Int64, ¬IntegerText (q :: (inner ++ [q])) n.toInt := by
    rw [← readInt64?_eq_none_iff]
    obtain rfl | rfl := hq <;> rfl
  have hnumber : ¬IsNumberText (q :: (inner ++ [q])) := by
    rw [IsNumberText, ← Decimal.isSome_readFloat?_iff]
    obtain rfl | rfl := hq
    · rintro ⟨⟨⟩, -⟩
    · rintro ⟨⟨⟩, -⟩
  have hword : ∀ v, ¬IsWord (q :: (inner ++ [q])) v := by
    rw [← readWord?_eq_none_iff]
    obtain rfl | rfl := hq <;> rfl
  rw [readValue_text hinteger hnumber hword]
  obtain rfl | rfl := hq
  · rw [unquote?_enclosed]
    rfl
  · rw [unquote?_enclosed]
    rfl

/-- The name in a binding is not blank. -/
def Named (name : List Char) : Prop :=
  ∃ c ∈ name, Text.isBlank c = false

theorem read_named {text : String} {name v : List Char} (htext : text.toList = name ++ '=' :: v)
    (hfirst : '=' ∉ name) (hname : Named name) :
    read text = .ok (String.ofList (Text.trim name), readValue v) := by
  obtain ⟨c, hc, hblank⟩ := hname
  have hnot : ¬Text.isAllBlank name := fun hall => by
    rw [Text.isAllBlank_iff.mp hall c hc] at hblank
    cases hblank
  unfold read
  rw [Text.splitOnce_eq_some_iff.mpr ⟨htext, hfirst⟩]
  dsimp only
  rw [if_neg hnot]

theorem read_unnamed {text : String} (h : ∀ name v, text.toList = name ++ '=' :: v →
    '=' ∉ name → ¬Named name) : read text = .error (.invalidBinding text) := by
  unfold read
  split
  · next name v hsplit =>
    obtain ⟨htext, hfirst⟩ := Text.splitOnce_eq_some_iff.mp hsplit
    have hall : Text.isAllBlank name := by
      refine Text.isAllBlank_iff.mpr fun c hc => ?_
      exact Bool.of_not_eq_false fun hblank => h name v htext hfirst ⟨c, hc, hblank⟩
    rw [if_pos hall]
  · rfl

/-- How a text is read, by its forms. Each form counts for the texts that have none of those before
it. -/
structure ReadByForm (cs : List Char) : Prop where
  integer : ∀ n : Int64, IntegerText cs n.toInt → readValue cs = .int n
  number : (∀ n : Int64, ¬IntegerText cs n.toInt) → IsNumberText cs →
    ∃ x, readFloat? cs = some x ∧ readValue cs = .float x
  word : ∀ v, IsWord cs v → readValue cs = v
  quoted : ∀ q inner, IsQuote q → cs = q :: (inner ++ [q]) →
    readValue cs = .str (String.ofList inner)
  raw : IsRaw cs → readValue cs = .str (String.ofList cs)

theorem readByForm (cs : List Char) : ReadByForm cs where
  integer n h := readValue_integer h
  number hinteger h := readValue_number hinteger h
  word v h := by cases h <;> rfl
  quoted q inner hq h := h ▸ readValue_quoted hq inner
  raw h := h.readValue

/-- A whole number is read from its decimal text, and a string from its text in quotes of either
kind. A text that is not the text of a number, a word or a text in quotes is read as the string that
it is. A binding is split at the first equals sign; it needs a name before it, from which the blanks
around it are taken. -/
theorem bindings_read :
    (∀ n : Int64, readValue (intText n).toList = .int n) ∧
      (∀ (s : String) (q : Char), IsQuote q → readValue (q :: (s.toList ++ [q])) = .str s) ∧
      (∀ cs, ReadByForm cs) ∧
      (∀ name v : String, '=' ∉ name.toList → Named name.toList →
        ∃ core, Text.Trimmed name.toList core ∧
          read (name ++ "=" ++ v) = .ok (String.ofList core, readValue v.toList)) ∧
      (∀ text : String, '=' ∉ text.toList → read text = .error (.invalidBinding text)) ∧
      ∀ name v : String, '=' ∉ name.toList → ¬Named name.toList →
        read (name ++ "=" ++ v) = .error (.invalidBinding (name ++ "=" ++ v)) := by
  have htext (name v : String) : (name ++ "=" ++ v).toList = name.toList ++ '=' :: v.toList := by
    simp
  refine ⟨fun n => ?_, fun s q hq => ?_, readByForm, fun name v hfirst hname => ?_,
    fun text hnone => ?_, fun name v hfirst hname => ?_⟩
  · rw [intText, String.toList_ofList]
    exact readValue_integer (Decimal.integerText_ofInt n.toInt)
  · rw [readValue_quoted hq, String.ofList_toList]
  · exact ⟨_, Text.trimmed_trim _, read_named (htext name v) hfirst hname⟩
  · refine read_unnamed fun name v htext _ => ?_
    rw [htext] at hnone
    exact absurd (by simp) hnone
  · refine read_unnamed fun name' v' htext' hfirst' => ?_
    rw [htext] at htext'
    have hsame := (Text.splitOnce_eq_some_iff.mpr ⟨rfl, hfirst⟩).symm.trans
      (Text.splitOnce_eq_some_iff.mpr ⟨htext', hfirst'⟩)
    obtain ⟨rfl, -⟩ := Prod.mk.inj (Option.some.inj hsame)
    exact hname

/-- A number in quotes is a string, a lone quote is no text in quotes, and only the first equals
sign splits a binding. -/
theorem bindings_read_quoted :
    readValue "'42'".toList = .str "42" ∧ readValue "\"".toList = .str "\"" ∧
      (∃ core, Text.Trimmed " a ".toList core ∧
        read (" a " ++ "=" ++ "b=1") = .ok (String.ofList core, readValue "b=1".toList)) ∧
      read "novalue" = .error (.invalidBinding "novalue") ∧
      read (" " ++ "=" ++ "1") = .error (.invalidBinding (" " ++ "=" ++ "1")) := by
  obtain ⟨-, hquoted, hforms, hnamed, hnone, hblank⟩ := bindings_read
  have hlone : IsRaw "\"".toList := by
    refine ⟨readInt64?_eq_none_iff.mp rfl, readNumber?_eq_none_iff.mp rfl,
      readWord?_eq_none_iff.mp rfl, ?_⟩
    rintro ⟨q, inner, -, h⟩
    simp at h
  refine ⟨hquoted "42" '\'' (.inr rfl), (hforms _).raw hlone,
    hnamed " a " "b=1" (by decide) ⟨'a', by decide, by decide⟩, hnone "novalue" (by decide),
    hblank " " "1" (by decide) ?_⟩
  rintro ⟨c, hc, hnot⟩
  obtain rfl : c = ' ' := by simpa using hc
  cases hnot

end Binding

end TemplateEngine

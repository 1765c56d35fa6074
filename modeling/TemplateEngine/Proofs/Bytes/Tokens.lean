import TemplateEngine.Expr.Parse
import TemplateEngine.Proofs.Bytes.Slice
import TemplateEngine.Proofs.References.Lookup
import TemplateEngine.Proofs.Syntax.Blanks
import TemplateEngine.Proofs.Syntax.Searched
import TemplateEngine.Proofs.Syntax.Spelled

/-! Reading an operand by its bytes. Characters are gone through one by one, and the text of a
number or a name is then taken from the operand by the places at which it starts and stops. -/
namespace TemplateEngine

open Text (byteLength slice? sliceFrom?)

namespace Lookup

variable {ε α β : Type}

@[simp] theorem liftM_some_bind (a : α) (f : α → Lookup ε β) :
    ((liftM (some a) : Lookup ε α) >>= f) = f a := rfl

@[simp] theorem total_ok_bind (a : α) (f : α → Lookup ε β) :
    (total (.ok a : Except ε α) >>= f) = f a := rfl

end Lookup

/-- The byte at which what is left of a text starts. -/
def Text.place (text rest : List Char) : Nat :=
  byteLength text - byteLength rest

theorem Text.place_append (before rest : List Char) :
    place (before ++ rest) rest = byteLength before := by
  rw [place, byteLength_append, Nat.add_sub_cancel]

namespace Expr

open Text (place place_append)

/-- Where a number stops that is read up to `stop` already, and what is left after it. A point
belongs to it if it is the first one and a digit follows. -/
def numberFrom? (text : List Char) (isFloat : Bool) (stop : Nat) :
    (rest : List Char) → Option (Nat × List Char)
  | [] => some (stop, [])
  | d :: rest =>
    let next := place text (d :: rest) + 1
    if d.isDigit then numberFrom? text isFloat next rest
    else if d = '.' ∧ isFloat = false then
      (sliceFrom? text next).bind fun after =>
        if after.head?.any Char.isDigit then numberFrom? text true next rest
        else some (stop, d :: rest)
    else some (stop, d :: rest)

def nameFrom (text : List Char) (stop : Nat) : (rest : List Char) → Nat × List Char
  | [] => (stop, [])
  | d :: rest =>
    if Text.isNamePart d then nameFrom text (place text (d :: rest) + d.utf8Size) rest
    else (stop, d :: rest)

/-- The first token of what is left of a text, which begins with `c`. -/
def readToken? (text : List Char) (c : Char) (rest : List Char) :
    Lookup SyntaxError (Token × List Char) := do
  let start := place text (c :: rest)
  if c.isDigit then
    let (stop, after) ← numberFrom? text false start (c :: rest)
    let literal ← slice? text start stop
    return (← .total (readNumber literal).1, after)
  else if Text.isNameStart c then
    let (stop, after) := nameFrom text start (c :: rest)
    return (.name (String.ofList (← slice? text start stop)), after)
  else if c = '\x22' ∨ c = '\x27' then
    match readString c [] rest with
    | some (s, after) => return (.str (String.ofList s), after)
    | none => throw .unterminatedString
  else
    match Punct.read? (← sliceFrom? text start) with
    | some (p, _) => return (.punct p, (c :: rest).drop p.symbol.toList.length)
    | none => throw (.unexpectedChar c)

/-- Goes on as long as each token takes a character. -/
def tokensFrom? (text : List Char) (rest : List Char) : Lookup SyntaxError (List Token) :=
  match rest with
  | [] => pure []
  | c :: rest =>
    if Text.isBlank c then tokensFrom? text rest
    else do
      let (t, after) ← readToken? text c rest
      if _ : after.length < rest.length + 1 then return t :: (← tokensFrom? text after)
      else ExceptT.mk none
termination_by rest.length

def parse? (text : List Char) : Lookup SyntaxError Ast := do
  .total (ofTokens (← tokensFrom? text text))

/-! The tokens are those that the characters give. -/

section Number

variable {text before : List Char}

theorem utf8Size_of_isDigit {d : Char} (h : d.isDigit) : d.utf8Size = 1 := by
  rw [Char.isDigit, Bool.and_eq_true, decide_eq_true_iff, decide_eq_true_iff] at h
  rw [Char.utf8Size_eq_one_iff]
  exact Nat.le_trans h.2 (by decide)

theorem next_of_utf8Size {d : Char} {rest : List Char} (h : text = before ++ d :: rest)
    (hd : d.utf8Size = 1) : place text (d :: rest) + 1 = byteLength (before ++ [d]) := by
  rw [h, place_append, Text.byteLength_append, Text.byteLength_cons, hd]
  rfl

/-- Digits are passed. -/
theorem numberFrom?_digits {digits : List Char} (hdigits : ∀ d ∈ digits, d.isDigit)
    {rest : List Char} (h : text = before ++ (digits ++ rest)) (isFloat : Bool) :
    numberFrom? text isFloat (byteLength before) (digits ++ rest) =
      numberFrom? text isFloat (byteLength (before ++ digits)) rest := by
  induction digits generalizing before with
  | nil => rw [List.append_nil, List.nil_append]
  | cons d digits ih =>
    obtain ⟨hd, hdigits⟩ := List.forall_mem_cons.mp hdigits
    have htext : text = (before ++ [d]) ++ (digits ++ rest) := by simpa using h
    rw [List.cons_append] at h ⊢
    rw [numberFrom?, if_pos hd, next_of_utf8Size h (utf8Size_of_isDigit hd), ih hdigits htext,
      List.append_assoc]
    rfl

/-- At anything but a digit a number stops, unless that is the point before its fraction. -/
theorem numberFrom?_stop {rest : List Char} (h : text = before ++ rest) {isFloat : Bool}
    (hrest : ∀ d ∈ rest.head?, d.isDigit = false)
    (hpoint : isFloat = false → ∀ d tail, rest = '.' :: d :: tail → d.isDigit = false) :
    numberFrom? text isFloat (byteLength before) rest = some (byteLength before, rest) := by
  cases rest with
  | nil => rfl
  | cons d rest =>
    rw [numberFrom?, if_neg (by simp [hrest d rfl])]
    split
    · next hd =>
      obtain ⟨rfl, hfloat⟩ := hd
      have hslice : sliceFrom? text (byteLength (before ++ ['.'])) = some rest :=
        Text.sliceFrom?_of_eq (by simp [h]) rfl
      have hhead : rest.head?.any Char.isDigit = false := by
        cases rest with
        | nil => rfl
        | cons c tail => exact hpoint hfloat c tail rfl
      rw [next_of_utf8Size h rfl, hslice, Option.bind_some, if_neg (by simp [hhead])]
    · rfl

/-- A number with a fraction. -/
theorem readNumber_fraction {whole fraction rest : List Char} (hwhole : ∀ d ∈ whole, d.isDigit)
    (hfraction : ∀ d ∈ fraction, d.isDigit) (hne : fraction ≠ [])
    (hrest : ∀ d ∈ rest.head?, d.isDigit = false) :
    readNumber (whole ++ '.' :: (fraction ++ rest)) =
      (.ok (.float (Decimal.floatOfDecimal false (whole ++ fraction) (-fraction.length))),
        rest) := by
  obtain ⟨d, tail, rfl⟩ := List.exists_cons_of_ne_nil hne
  have hpoint : ∀ d ∈ ('.' :: (d :: tail ++ rest)).head?, d.isDigit = false := by
    rintro _ ⟨⟩
    rfl
  have htake : (d :: tail ++ rest).takeWhile (·.isDigit) = d :: tail :=
    takeWhile_append_stop hfraction hrest
  have hdrop : (d :: tail ++ rest).dropWhile (·.isDigit) = rest :=
    dropWhile_append_stop hfraction hrest
  unfold readNumber
  rw [takeWhile_append_stop hwhole hpoint, dropWhile_append_stop hwhole hpoint, List.cons_append]
  dsimp only
  split
  · next heq =>
    cases heq
    rw [if_pos (hfraction d List.mem_cons_self), ← List.cons_append, htake, hdrop]
  · next hnot => exact absurd rfl (hnot _ _)

/-- The bytes of a number are those of its characters, and it can be read on its own. -/
theorem exists_of_numberFrom? {cs : List Char} (h : text = before ++ cs) :
    ∃ literal after, cs = literal ++ after ∧
      numberFrom? text false (byteLength before) cs =
        some (byteLength (before ++ literal), after) ∧
      readNumber cs = ((readNumber literal).1, after) := by
  have hnot (cs : List Char) : ∀ d ∈ (cs.dropWhile (·.isDigit)).head?, d.isDigit = false := by
    intro d hd
    have hhead := List.head?_dropWhile_not (·.isDigit) cs
    rw [Option.mem_def.mp hd] at hhead
    simpa using hhead
  obtain ⟨whole, rest, rfl, hwhole, hrest⟩ : ∃ whole rest, cs = whole ++ rest ∧
      (∀ d ∈ whole, d.isDigit) ∧ ∀ d ∈ rest.head?, d.isDigit = false :=
    ⟨_, _, List.takeWhile_append_dropWhile.symm, fun _ => List.mem_takeWhile_imp, hnot cs⟩
  by_cases hpoint : ∃ d tail, rest = '.' :: d :: tail ∧ d.isDigit
  · obtain ⟨d, tail, rfl, hd⟩ := hpoint
    obtain ⟨fraction, after, htail, hfraction, hafter⟩ : ∃ fraction after,
        d :: tail = fraction ++ after ∧ (∀ d ∈ fraction, d.isDigit) ∧
          ∀ d ∈ after.head?, d.isDigit = false :=
      ⟨_, _, List.takeWhile_append_dropWhile.symm, fun _ => List.mem_takeWhile_imp, hnot _⟩
    have hne : fraction ≠ [] := by
      rintro rfl
      rw [hafter d (by rw [← List.nil_append after, ← htail]; rfl)] at hd
      cases hd
    rw [htail] at h ⊢
    have hplace : place text ('.' :: (fraction ++ after)) + 1 =
        byteLength (before ++ whole ++ ['.']) :=
      next_of_utf8Size (by rw [h, List.append_assoc]) rfl
    have hslice : sliceFrom? text (byteLength (before ++ whole ++ ['.'])) =
        some (fraction ++ after) := Text.sliceFrom?_of_eq (by simp [h]) rfl
    have hhead : (fraction ++ after).head?.any Char.isDigit := by
      rw [← htail]
      exact hd
    have htext : text = before ++ whole ++ ['.'] ++ (fraction ++ after) := by simp [h]
    have hstop : numberFrom? text true (byteLength (before ++ whole ++ ['.'] ++ fraction)) after =
        some (byteLength (before ++ whole ++ ['.'] ++ fraction), after) :=
      numberFrom?_stop (by simp [h]) hafter nofun
    have hself : readNumber (whole ++ '.' :: (fraction ++ [])) = _ :=
      readNumber_fraction hwhole hfraction hne nofun
    rw [List.append_nil] at hself
    refine ⟨whole ++ '.' :: fraction, after, by simp, ?_, ?_⟩
    · rw [numberFrom?_digits hwhole h, numberFrom?, if_neg (by decide), if_pos ⟨rfl, rfl⟩, hplace,
        hslice, Option.bind_some, if_pos hhead, numberFrom?_digits hfraction htext, hstop]
      simp
    · rw [readNumber_fraction hwhole hfraction hne hafter, hself]
  · push Not at hpoint
    have hself : readNumber (whole ++ []) = (readNumber.integer whole, []) :=
      readNumber_whole hwhole nofun nofun
    rw [List.append_nil] at hself
    have hfrac : ∀ d tail, rest = '.' :: d :: tail → d.isDigit = false :=
      fun d tail h => Bool.eq_false_iff.mpr (hpoint d tail h)
    refine ⟨whole, rest, rfl, ?_, ?_⟩
    · rw [numberFrom?_digits hwhole h,
        numberFrom?_stop (by rw [h, List.append_assoc]) hrest fun _ => hfrac]
    · rw [readNumber_whole hwhole hrest hfrac, hself]

end Number

theorem nameFrom_eq {text before cs : List Char} (h : text = before ++ cs) :
    nameFrom text (byteLength before) cs =
      (byteLength (before ++ cs.takeWhile Text.isNamePart), cs.dropWhile Text.isNamePart) := by
  induction cs generalizing before with
  | nil => simp [nameFrom]
  | cons c cs ih =>
    rw [nameFrom, List.takeWhile_cons, List.dropWhile_cons]
    split
    · have hnext : place text (c :: cs) + c.utf8Size = byteLength (before ++ [c]) := by
        rw [h, place_append, Text.byteLength_append, Text.byteLength_cons]
        rfl
      rw [hnext, ih (by simp [h]), List.append_assoc]
      rfl
    · rw [List.append_nil]

theorem readToken?_eq {text before rest : List Char} {c : Char} (h : text = before ++ c :: rest) :
    readToken? text c rest = .total (readToken c rest) := by
  have hplace : place text (c :: rest) = byteLength before := by rw [h, place_append]
  unfold readToken? readToken
  dsimp only
  rw [hplace]
  split
  · obtain ⟨literal, after, hcs, hnumber, hread⟩ := exists_of_numberFrom? h
    have hslice : slice? text (byteLength before) (byteLength (before ++ literal)) =
        some literal := Text.slice?_of_eq (by rw [h, hcs]) rfl (Text.byteLength_append _ _)
    rw [hnumber, Lookup.liftM_some_bind]
    dsimp only
    rw [hslice, Lookup.liftM_some_bind, hread]
    cases (readNumber literal).1 <;> rfl
  · split
    · next hname =>
      have hpart := Text.isNamePart_of_isNameStart hname
      have hslice : slice? text (byteLength before)
          (byteLength (before ++ (c :: rest).takeWhile Text.isNamePart)) =
            some ((c :: rest).takeWhile Text.isNamePart) := by
        have htext : text = before ++ ((c :: rest).takeWhile Text.isNamePart ++
            (c :: rest).dropWhile Text.isNamePart) := by
          rw [List.takeWhile_append_dropWhile, h]
        exact Text.slice?_of_eq htext rfl (Text.byteLength_append _ _)
      rw [nameFrom_eq h]
      dsimp only
      rw [hslice, Lookup.liftM_some_bind, List.takeWhile_cons, List.dropWhile_cons, if_pos hpart,
        if_pos hpart]
      rfl
    · split
      · cases readString c [] rest <;> rfl
      · rw [Text.sliceFrom?_of_eq h rfl, Lookup.liftM_some_bind]
        cases hread : Punct.read? (c :: rest) with
        | none => rfl
        | some x =>
          obtain ⟨p, after⟩ := x
          have hafter : (c :: rest).drop p.symbol.toList.length = after := by
            rw [eq_of_read? hread, List.drop_left]
          dsimp only
          rw [hafter]
          rfl

theorem exists_of_readToken {c : Char} {cs after : List Char} {t : Token}
    (h : readToken c cs = .ok (t, after)) : ∃ used, c :: cs = used ++ after := by
  obtain ⟨used, hused, -⟩ :
      ∃ used, c :: cs = used ++ after ∧ Text.Nesting.past ',' { depth := 1 } used = _ :=
    past_of_readToken (.inl rfl) h nofun
  exact ⟨used, hused⟩

theorem tokensFrom?_eq {text before cs : List Char} (h : text = before ++ cs) :
    tokensFrom? text cs = .total (tokens cs) := by
  induction hn : cs.length using Nat.strongRecOn generalizing before cs with
  | ind n ih =>
    cases cs with
    | nil =>
      rw [tokensFrom?, tokens_eq]
      rfl
    | cons c cs =>
      rw [List.length_cons] at hn
      rw [tokensFrom?]
      split
      · next hblank =>
        have htext : text = (before ++ [c]) ++ cs := by simp [h]
        rw [tokens_of_isBlank hblank]
        exact ih cs.length (by omega) htext rfl
      · next hblank =>
        rw [tokens_of_not_isBlank hblank, readToken?_eq h]
        cases hread : readToken c cs with
        | error e => rfl
        | ok x =>
          obtain ⟨t, after⟩ := x
          have hlt : after.length < cs.length + 1 := readToken_length hread
          obtain ⟨used, hused⟩ := exists_of_readToken hread
          have htext : text = (before ++ used) ++ after := by rw [h, hused, List.append_assoc]
          rw [Lookup.total_ok_bind]
          dsimp only
          rw [dif_pos hlt, ih after.length (by omega) htext rfl]
          change _ = Lookup.total ((tokens after).map (t :: ·))
          cases tokens after <;> rfl

theorem parse?_eq (text : List Char) : parse? text = .total (parse text) := by
  rw [parse?, tokensFrom?_eq (List.nil_append text).symm, parse]
  cases tokens text <;> rfl

end Expr

end TemplateEngine

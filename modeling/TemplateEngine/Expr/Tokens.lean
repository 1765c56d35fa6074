import TemplateEngine.Expr.Token

/-! Cutting an operand into tokens. Each token takes at least one character. -/
namespace TemplateEngine.Expr

private theorem length_dropWhile_le (p : Char → Bool) (cs : List Char) :
    (cs.dropWhile p).length ≤ cs.length :=
  (List.dropWhile_sublist p).length_le

theorem readString_length {mark : Char} {seen cs s after : List Char}
    (h : readString mark seen cs = some (s, after)) : after.length < cs.length := by
  fun_induction readString mark seen cs with
  | case1 => cases h
  | case2 seen c rest ih =>
    have := ih h
    simp only [List.length_cons]
    omega
  | case3 => cases h
  | case4 => cases h; simp
  | case5 seen c rest _ _ _ ih =>
    have := ih h
    simp only [List.length_cons]
    omega

theorem Punct.read?_length {cs : List Char} {p : Punct} {after : List Char}
    (h : Punct.read? cs = some (p, after)) : after.length < cs.length := by
  unfold Punct.read? at h
  split at h <;> cases h <;> simp only [List.length_cons] <;> omega

theorem readNumber_length {c : Char} (rest : List Char) (hc : c.isDigit) :
    (readNumber (c :: rest)).2.length < (c :: rest).length := by
  have hdrop : (c :: rest).dropWhile (·.isDigit) = rest.dropWhile (·.isDigit) := by
    rw [List.dropWhile_cons, if_pos hc]
  have hle := length_dropWhile_le (·.isDigit) rest
  unfold readNumber
  simp only [hdrop]
  split
  next d after heq =>
    rw [heq, List.length_cons, List.length_cons] at hle
    have := length_dropWhile_le (·.isDigit) (d :: after)
    split
    · simp only [List.length_cons] at this ⊢; omega
    · simp only [heq, List.length_cons]; omega
  next => simp only [List.length_cons]; omega

theorem readToken_length {c : Char} {rest : List Char} {t : Token} {after : List Char}
    (h : readToken c rest = .ok (t, after)) : after.length < (c :: rest).length := by
  unfold readToken at h
  split at h
  next hc =>
    have := readNumber_length rest hc
    cases hn : readNumber (c :: rest) with
    | mk token tail =>
      rw [hn] at h this
      cases token with
      | error e => cases h
      | ok u => cases h; exact this
  next =>
    split at h
    next =>
      cases h
      have := length_dropWhile_le Text.isNamePart rest
      simp only [List.length_cons]
      omega
    next =>
      split at h
      next =>
        split at h
        next s a hs =>
          cases h
          have := readString_length hs
          simp only [List.length_cons]
          omega
        next => cases h
      next =>
        split at h
        next p a hp => cases h; exact Punct.read?_length hp
        next => cases h

def tokens (cs : List Char) : Except SyntaxError (List Token) :=
  match hcs : cs.dropWhile Text.isBlank with
  | [] => .ok []
  | c :: rest =>
    match ht : readToken c rest with
    | .error e => .error e
    | .ok (t, after) =>
      have : after.length < cs.length := by
        have h₁ := readToken_length ht
        have h₂ := length_dropWhile_le Text.isBlank cs
        rw [hcs] at h₂
        omega
      (tokens after).map (t :: ·)
termination_by cs.length

end TemplateEngine.Expr

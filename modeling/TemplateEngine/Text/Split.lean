import TemplateEngine.Text.CharClass

/-! Cutting text: at the ends, at a word, at a character. -/
namespace TemplateEngine.Text

def trimStart (cs : List Char) : List Char :=
  cs.dropWhile isBlank

def trimEnd (cs : List Char) : List Char :=
  (cs.reverse.dropWhile isBlank).reverse

def trim (cs : List Char) : List Char :=
  trimEnd (trimStart cs)

def isAllBlank (cs : List Char) : Bool :=
  (trim cs).isEmpty

def stripPrefix? : (word cs : List Char) → Option (List Char)
  | [], cs => some cs
  | _ :: _, [] => none
  | w :: word, c :: cs => if w = c then stripPrefix? word cs else none

@[simp] theorem stripPrefix?_eq_some_iff {word cs after : List Char} :
    stripPrefix? word cs = some after ↔ cs = word ++ after := by
  induction word generalizing cs with
  | nil => simp [stripPrefix?]
  | cons w word ih =>
    cases cs with
    | nil => simp [stripPrefix?]
    | cons c cs =>
      unfold stripPrefix?
      split
      next hc => simp [hc, ih]
      next hc => simp [Ne.symm hc]

/-- The text before the first occurrence of `word` and the text after it. `seen` is the reverse of
what was passed. -/
def cutFrom (word : List Char) (seen : List Char) : List Char → Option (List Char × List Char)
  | [] => if word = [] then some (seen.reverse, []) else none
  | c :: rest =>
    match stripPrefix? word (c :: rest) with
    | some after => some (seen.reverse, after)
    | none => cutFrom word (c :: seen) rest

def cut (word cs : List Char) : Option (List Char × List Char) :=
  cutFrom word [] cs

theorem cutFrom_eq_some {word : List Char} {seen cs before after : List Char}
    (h : cutFrom word seen cs = some (before, after)) :
    seen.reverse ++ cs = before ++ word ++ after := by
  induction cs generalizing seen with
  | nil =>
    unfold cutFrom at h
    split at h
    next hw => cases h; simp [hw]
    next => cases h
  | cons c rest ih =>
    unfold cutFrom at h
    split at h
    next a ha =>
      cases h
      rw [stripPrefix?_eq_some_iff.mp ha, List.append_assoc]
    next => simpa using ih h

theorem cut_eq_some {word cs before after : List Char} (h : cut word cs = some (before, after)) :
    cs = before ++ word ++ after := by
  simpa [cut] using cutFrom_eq_some h

def occursIn (word cs : List Char) : Bool :=
  (cut word cs).isSome

def splitOnce (sep : Char) (cs : List Char) : Option (List Char × List Char) :=
  cut [sep] cs

theorem splitOnce_eq_some {sep : Char} {cs before after : List Char}
    (h : splitOnce sep cs = some (before, after)) : cs = before ++ sep :: after := by
  simpa using cut_eq_some h

/-- The pieces of a text between the separators, of which `piece` is the reverse of what was passed
of the first. -/
def splitAllFrom (sep : Char) (piece : List Char) : List Char → List (List Char)
  | [] => [piece.reverse]
  | c :: cs =>
    if c = sep then piece.reverse :: splitAllFrom sep [] cs else splitAllFrom sep (c :: piece) cs

/-- Every piece of `cs` between the separators; there is always at least one. -/
def splitAll (sep : Char) (cs : List Char) : List (List Char) :=
  splitAllFrom sep [] cs

/-- `cs` without one line break, which is a line feed with or without a carriage return. -/
def dropLineBreak : List Char → List Char
  | '\r' :: '\n' :: rest => rest
  | '\n' :: rest => rest
  | cs => cs

def dropLastLineBreak (cs : List Char) : List Char :=
  match cs.reverse with
  | '\n' :: '\r' :: rest => rest.reverse
  | '\n' :: rest => rest.reverse
  | _ => cs

end TemplateEngine.Text

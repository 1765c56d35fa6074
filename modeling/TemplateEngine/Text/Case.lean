import TemplateEngine.Text.Character.CaseIgnorable
import TemplateEngine.Text.Character.CasePairs
import TemplateEngine.Text.Character.Cased

/-! Upper and lower case of text. A character may have an upper case of several characters, and
a capital sigma has one lower case inside a word and another at its end. -/
namespace TemplateEngine.Text

def upperChar (c : Char) : List Char :=
  if c.toNat < 0x80 then [c.toUpper]
  else
    match Character.upperExpansions.lookup c.toNat with
    | some image => image.map Char.ofNat
    | none =>
      match Character.upperRuns.findSome? (·.image? c.toNat) with
      | some image => [Char.ofNat image]
      | none => [c]

def upper (cs : List Char) : List Char :=
  cs.flatMap upperChar

/-- A capital I with a dot keeps its dot as a combining character. -/
def lowerChar (c : Char) : List Char :=
  if c.toNat < 0x80 then [c.toLower]
  else if c.toNat = 0x130 then ['i', Char.ofNat 0x307]
  else
    match Character.lowerRuns.findSome? (·.image? c.toNat) with
    | some image => [Char.ofNat image]
    | none => [c]

def isCased (c : Char) : Bool :=
  if c.toNat < 0x80 then c.isAlpha else Character.holdsAt c.toNat Character.cased

def isCaseIgnorable (c : Char) : Bool :=
  if c.toNat < 0x80 then c ∈ ['\x27', '.', ':', '^', '\x60']
  else Character.holdsAt c.toNat Character.caseIgnorable

/-- Whether the first character that case does not ignore is a cased one. -/
def reachesCased (cs : List Char) : Bool :=
  match cs.dropWhile isCaseIgnorable with
  | c :: _ => isCased c
  | [] => false

/-- Lower case of `cs` after the text whose reverse is `before`. A capital sigma ends a word when
a cased letter comes before it and none after it. -/
def lowerAfter (before : List Char) : (cs : List Char) → List Char
  | [] => []
  | c :: rest =>
    let image :=
      if c.toNat = 0x3a3 then
        if reachesCased before && !reachesCased rest then [Char.ofNat 0x3c2]
        else [Char.ofNat 0x3c3]
      else lowerChar c
    image ++ lowerAfter (c :: before) rest

def lower (cs : List Char) : List Char :=
  lowerAfter [] cs

end TemplateEngine.Text

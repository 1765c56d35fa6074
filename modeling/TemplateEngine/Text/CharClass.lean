import TemplateEngine.Text.Character.Alphabetic
import TemplateEngine.Text.Character.Boundaries
import TemplateEngine.Text.Character.GraphemeExtend
import TemplateEngine.Text.Character.Numeric
import TemplateEngine.Text.Character.Unprintable

/-! The character classes that names, numbers, blanks and quoted text are made of. ASCII is
decided directly; every other character by its Unicode properties. -/
namespace TemplateEngine.Text

def isBlank (c : Char) : Bool :=
  let n := c.toNat
  n == 0x20 || (0x9 ≤ n && n ≤ 0xd) || n == 0x85 || n == 0xa0 || n == 0x1680 ||
    (0x2000 ≤ n && n ≤ 0x200a) || n == 0x2028 || n == 0x2029 || n == 0x202f || n == 0x205f ||
    n == 0x3000

def isAlphabetic (c : Char) : Bool :=
  if c.toNat < 0x80 then c.isAlpha else Character.holdsAt c.toNat Character.alphabetic

/-- The Unicode number categories. -/
def isNumeric (c : Char) : Bool :=
  if c.toNat < 0x80 then c.isDigit else Character.holdsAt c.toNat Character.numeric

def isAlphanumeric (c : Char) : Bool :=
  isAlphabetic c || isNumeric c

/-- The fillers of Hangul syllables, the only letters that are shown as nothing at all. -/
def isFiller (c : Char) : Bool :=
  let n := c.toNat
  n == 0x115f || n == 0x1160 || n == 0x3164 || n == 0xffa0

/-- Whether `c` is shown by its own glyph; a space is, the other separators are not. -/
def isPrintable (c : Char) : Bool :=
  if c.toNat < 0x80 then 0x20 ≤ c.toNat && c.toNat < 0x7f
  else !isFiller c && !Character.holdsAt c.toNat Character.unprintable

/-- The sound marks of halfwidth katakana. They belong to the character before them, but each is
shown in a place of its own. -/
def isHalfwidthMark (c : Char) : Bool :=
  c.toNat == 0xff9e || c.toNat == 0xff9f

/-- Whether `c` is shown over or under the character before it, such as a combining accent. It is
so with the Unicode property Grapheme_Extend, apart from halfwidth marks. -/
def isCombining (c : Char) : Bool :=
  0x80 ≤ c.toNat && !isHalfwidthMark c && Character.holdsAt c.toNat Character.graphemeExtend

end TemplateEngine.Text

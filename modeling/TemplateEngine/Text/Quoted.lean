import TemplateEngine.Text.CharClass

/-! Text between double quotes, on one line and with every character visible: what listings and
messages show where the text itself could break a line or be mistaken for something else. -/
namespace TemplateEngine.Text

def hexDigits (n : Nat) : List Char :=
  Nat.toDigits 16 n

def escapeChar (c : Char) : List Char :=
  if c = '\x22' then ['\\', '\x22']
  else if c = '\\' then ['\\', '\\']
  else if c = '\t' then ['\\', 't']
  else if c = '\r' then ['\\', 'r']
  else if c = '\n' then ['\\', 'n']
  else if c = '\x00' then ['\\', '0']
  else if isCombining c || !isPrintable c then
    ['\\', 'u', '\x7b'] ++ hexDigits c.toNat ++ ['\x7d']
  else [c]

def quoteChars (cs : List Char) : List Char :=
  '\x22' :: (cs.flatMap escapeChar ++ ['\x22'])

/-- `s` in double quotes. A single quote stands for itself. -/
def quote (s : String) : String :=
  String.ofList (quoteChars s.toList)

end TemplateEngine.Text

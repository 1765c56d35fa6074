import TemplateEngine.Malformed
import TemplateEngine.Text.Split

/-! The markers of a source text. What stands between the opening and the closing of a marker is
classified by its first characters; the parts of it are kept as they were written. -/
namespace TemplateEngine

/-- How a marker opens. A `<` before any other character is text. -/
inductive Opener where
  | variable
  | directive
  | closer
  deriving DecidableEq, Repr

def Opener.char : Opener → Char
  | .variable => '&'
  | .directive => ':'
  | .closer => '.'

def Opener.ofChar? (c : Char) : Option Opener :=
  if c = '&' then some .variable
  else if c = ':' then some .directive
  else if c = '.' then some .closer
  else none

inductive Directive where
  | variable (path : List Char)
  | openIf (cond : List Char)
  | elsif (cond : List Char)
  | otherwise
  | closeIf
  | openFor (var container : List Char)
  | closeFor
  | set (var value : List Char)
  | call (name : List Char) (args : Option (List Char))
  | exec (op : List Char) (arg : Option (List Char))
  | debug (value compare : Option (List Char))
  deriving DecidableEq, Repr

/-- A marker that only decides which text is written. -/
inductive Layout where
  | skipSpace
  | skipNewline
  | skipBlanks
  | character (c : Char)
  | comment
  deriving DecidableEq, Repr

inductive Marker where
  | directive (d : Directive)
  | layout (l : Layout)
  deriving DecidableEq, Repr

namespace Marker

def hexDigit? (c : Char) : Option Nat :=
  if '0' ≤ c ∧ c ≤ '9' then some (c.toNat - 0x30)
  else if 'a' ≤ c ∧ c ≤ 'f' then some (c.toNat - 0x57)
  else if 'A' ≤ c ∧ c ≤ 'F' then some (c.toNat - 0x37)
  else none

def readHex? (cs : List Char) : Option Nat :=
  if cs.isEmpty then none
  else (cs.mapM hexDigit?).map fun ds => ds.foldl (fun n d => 16 * n + d) 0

/-- The character with the given code point: up to six bytes of hexadecimal digits, with or without
a plus sign. -/
def codePoint? (cs : List Char) : Option Char :=
  if 6 < Text.byteLength cs then none
  else
    let digits :=
      match cs with
      | '+' :: rest => rest
      | cs => cs
    (readHex? digits).bind fun n => if n.isValidChar then some (Char.ofNat n) else none

def optionalPart (cs : List Char) : List Char × Option (List Char) :=
  match Text.splitOnce ':' cs with
  | some (first, rest) => (first, some rest)
  | none => (cs, none)

/-- The directive with the given text, if it has one of their forms. No two forms share a text. -/
def directive? (body : List Char) : Option Directive :=
  let after (keyword : String) : Option (List Char) := Text.stripPrefix? keyword.toList body
  if let some cond := after "if:" then some (.openIf cond)
  else if let some cond := after "elsif:" then some (.elsif cond)
  else if Text.trimEnd body = "else".toList then some .otherwise
  else if let some rest := after "for:" then
    (Text.splitOnce ':' rest).map fun (var, container) => .openFor var container
  else if let some rest := after "set:" then
    (Text.splitOnce '=' rest).map fun (var, value) => .set var value
  else if let some rest := after "call:" then
    let (name, args) := optionalPart rest
    some (.call name args)
  else if let some rest := after "exec:" then
    let (op, arg) := optionalPart rest
    some (.exec op arg)
  else if body = "debug".toList then some (.debug none none)
  else if let some rest := after "debug:" then
    let (value, compare) := optionalPart rest
    some (.debug (some value) compare)
  else none

def layout? (body : List Char) : Option Layout :=
  if body = [' '] then some .skipSpace
  else if body = ['?', 'n', 'l'] then some .skipNewline
  else if body = ['?', ' '] then some .skipBlanks
  else if body = ['n'] then some (.character '\n')
  else if body = ['r'] then some (.character '\r')
  else if body = ['t'] then some (.character '\t')
  else if body = ['s'] then some (.character ' ')
  else if (Text.stripPrefix? ['-', '-'] body).isSome then some .comment
  else none

def closer? (body : List Char) : Option Directive :=
  if Text.trim body = "if".toList then some .closeIf
  else if Text.trim body = "for".toList then some .closeFor
  else none

def classify (opener : Opener) (body : List Char) : Except Fault Marker :=
  let unknown : Except Fault Marker :=
    .error (.unknownMarker (String.ofList (opener.char :: body)))
  match opener with
  | .variable => .ok (.directive (.variable body))
  | .closer => (closer? body).elim unknown fun d => .ok (.directive d)
  | .directive =>
    if let some d := directive? body then .ok (.directive d)
    else if let some l := layout? body then .ok (.layout l)
    else
      match Text.stripPrefix? ['x'] body with
      | none => unknown
      | some hex =>
        match codePoint? (Text.trim hex) with
        | some c => .ok (.layout (.character c))
        | none => .error (.invalidCodePoint (String.ofList hex))

end Marker

namespace Layout

/-- The text that a layout marker stands for. A skip directly after a skip stands for one space. -/
def text (l : Layout) (afterSkip : Bool) : List Char :=
  match l with
  | .character c => [c]
  | .skipSpace => if afterSkip then [' '] else []
  | _ => []

/-- What a layout marker leaves of the text that follows it. -/
def skip (l : Layout) (cs : List Char) : List Char :=
  match l with
  | .skipSpace => Text.trimStart cs
  | .skipNewline => Text.dropLineBreak cs
  | .skipBlanks => cs.dropWhile fun c => c == ' ' || c == '\t'
  | _ => cs

theorem length_skip_le (l : Layout) (cs : List Char) : (l.skip cs).length ≤ cs.length := by
  unfold skip
  split
  · exact (List.dropWhile_sublist _).length_le
  · unfold Text.dropLineBreak
    split
    · simp only [List.length_cons]; omega
    · simp only [List.length_cons]; omega
    · exact Nat.le_refl _
  · exact (List.dropWhile_sublist _).length_le
  · exact Nat.le_refl _

end Layout

end TemplateEngine

import TemplateEngine.Command.Error

/-! How a failed command is reported. What is malformed in a file is shown in its text; how that is
drawn is left open. -/
namespace TemplateEngine

/-- How many characters start in the first `offset` bytes of a text. -/
def charsBefore : (offset : Nat) → List Char → Nat
  | 0, _ => 0
  | _, [] => 0
  | offset + 1, c :: rest => charsBefore (offset + 1 - c.utf8Size) rest + 1

/-- The characters of a range of bytes, at least one. -/
def charSpan (source : List Char) (s : Text.Span) : Nat × Nat :=
  let start := charsBefore s.start source
  (start, max (charsBefore s.stop source) (start + 1))

example : charSpan "héllo <.if>".toList ⟨7, 12⟩ = (6, 11) := by decide

/-- An error to be drawn. What `label` points at is told by counting characters. -/
structure Diagnostic where
  message : String
  span : Nat × Nat
  label : String
  note : String

def Diagnostic.ofMalformed (path : String) (source : List Char) (e : Malformed) : Diagnostic where
  message := "malformed template `" ++ e.template ++ "`"
  span := charSpan source e.span
  label := e.fault.message
  note := "at " ++ path ++ ":" ++ toString e.position.line ++ ":" ++ toString e.position.column

/-- Draws an error in the text that it is about, if that can be done. -/
abbrev Drawing := List Char → Diagnostic → Option String

def CommandError.report (draw : Drawing) : CommandError → String
  | .malformed path source e =>
    (draw source (.ofMalformed path source e)).getD (path ++ ": " ++ e.message ++ "\n")
  | e => "error: " ++ e.message ++ "\n"

end TemplateEngine

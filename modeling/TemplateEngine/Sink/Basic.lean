/-! Where a run writes to. -/
namespace TemplateEngine

/-- Takes text piece by piece and tells of each piece whether it took all of it. -/
class Sink (σ : Type) where
  write : σ → String → σ × Bool

/-- Text in memory. `room` is the number of characters that still fit; without it all text fits. -/
structure TextSink where
  text : String := ""
  room : Option Nat := none

namespace TextSink

/-- A piece that does not fit is taken as far as it does. -/
def write (s : TextSink) (piece : String) : TextSink × Bool :=
  match s.room with
  | none => ({ s with text := s.text ++ piece }, true)
  | some room =>
    if piece.length ≤ room then
      ({ text := s.text ++ piece, room := some (room - piece.length) }, true)
    else
      ({ text := s.text ++ String.ofList (piece.toList.take room), room := some 0 }, false)

instance : Sink TextSink := ⟨write⟩

def take (s : TextSink) : TextSink × String :=
  ({ s with text := "" }, s.text)

def clear (s : TextSink) : TextSink :=
  s.take.1

def size (s : TextSink) : Nat :=
  s.text.utf8ByteSize

def isEmpty (s : TextSink) : Bool :=
  s.text.isEmpty

def listing (s : TextSink) : String :=
  "BufferSink \x7b len: " ++ toString s.size ++ " \x7d"

end TextSink

end TemplateEngine

import TemplateEngine.Sink.Basic

/-! Writing text to something that takes bytes, and may fail. -/
namespace TemplateEngine

/-- What kind of failure a write ended with. One that was interrupted is tried again. -/
inductive ErrorKind where
  | interrupted
  | other (name : String)
  deriving DecidableEq, Repr

def ErrorKind.name : ErrorKind → String
  | .interrupted => "Interrupted"
  | .other name => name

structure WriteError where
  kind : ErrorKind
  text : String
  deriving DecidableEq, Repr

/-- What ends a write to something that does not fail but takes no more bytes either. -/
def WriteError.writeZero : WriteError :=
  ⟨.other "WriteZero", "failed to write whole buffer"⟩

def WriteError.closed : WriteError :=
  ⟨.other "BrokenPipe", "closed"⟩

/-- Takes a first part of the given bytes and answers how many, or fails. However often a write is
interrupted and tried again, at last it is not. -/
class Writer (ω : Type) where
  write : ω → List UInt8 → ω × Except WriteError Nat
  patient (bytes : List UInt8) : WellFounded fun w' w : ω =>
    ∃ e, write w bytes = (w', .error e) ∧ e.kind = .interrupted

section

variable {ω : Type} [Writer ω]

/-- Writes, again and again as long as that is interrupted. -/
def persist (bytes : List UInt8) (w : ω) : ω × Except WriteError Nat :=
  match _ : Writer.write w bytes with
  | (w', .error e) => if _ : e.kind = .interrupted then persist bytes w' else (w', .error e)
  | (w', .ok n) => (w', .ok n)
termination_by (Writer.patient bytes).wrap w
decreasing_by exact ⟨e, ‹_›, ‹_›⟩

def writeAll (w : ω) : List UInt8 → ω × Option WriteError
  | [] => (w, none)
  | b :: rest =>
    match persist (b :: rest) w with
    | (w, .error e) => (w, some e)
    | (w, .ok 0) => (w, some .writeZero)
    | (w, .ok (n + 1)) => writeAll w (rest.drop n)
termination_by bytes => bytes.length
decreasing_by
  simp only [List.length_drop, List.length_cons]
  omega

end

/-- Keeps the first failure of its writer. While it is kept, every write is refused. -/
structure ByteSink (ω : Type) where
  writer : ω
  error : Option WriteError := none

namespace ByteSink

variable {ω : Type} [Writer ω]

def write (s : ByteSink ω) (piece : String) : ByteSink ω × Bool :=
  match s.error with
  | some _ => (s, false)
  | none =>
    let (writer, error) := writeAll s.writer piece.toUTF8.toList
    ({ writer, error }, error.isNone)

instance : Sink (ByteSink ω) := ⟨write⟩

/-- Takes the failure out; the next write is tried again. -/
def takeError (s : ByteSink ω) : ByteSink ω × Option WriteError :=
  ({ s with error := none }, s.error)

end ByteSink

/-- A writer with room for so many bytes. A full one either fails or takes nothing. -/
structure BoundedWriter where
  taken : Array UInt8 := #[]
  room : Option Nat := none
  failsWhenFull : Bool := true

namespace BoundedWriter

def write (w : BoundedWriter) (bytes : List UInt8) : BoundedWriter × Except WriteError Nat :=
  match w.room with
  | none => ({ w with taken := w.taken ++ bytes }, .ok bytes.length)
  | some 0 => (w, if w.failsWhenFull then .error .closed else .ok 0)
  | some room =>
    let part := bytes.take room
    ({ w with taken := w.taken ++ part, room := some (room - part.length) }, .ok part.length)

instance : Writer BoundedWriter where
  write := write
  patient bytes := by
    refine ⟨fun w => ⟨w, ?_⟩⟩
    rintro w' ⟨e, hwrite, hkind⟩
    unfold write at hwrite
    split at hwrite
    · cases hwrite
    · split at hwrite <;> cases hwrite
      cases hkind
    · cases hwrite

/-- The characters that the bytes hold, with a replacement character for one that was cut. -/
def text (w : BoundedWriter) : String :=
  go w.taken.size
where
  go : Nat → String
    | 0 => if w.taken.isEmpty then "" else "\ufffd"
    | n + 1 =>
      match String.fromUTF8? ⟨w.taken.extract 0 (n + 1)⟩ with
      | some s => if n + 1 = w.taken.size then s else s ++ "\ufffd"
      | none => go n

end BoundedWriter

end TemplateEngine

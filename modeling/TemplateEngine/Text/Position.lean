/-! Places in a source text. Offsets count bytes of UTF-8; a line ends after a line feed, and a
column counts characters. -/
namespace TemplateEngine.Text

def byteLength (cs : List Char) : Nat :=
  cs.foldl (fun n c => n + c.utf8Size) 0

private theorem foldl_utf8Size (n : Nat) (cs : List Char) :
    cs.foldl (fun n c => n + c.utf8Size) n = n + byteLength cs := by
  induction cs generalizing n with
  | nil => rfl
  | cons c rest ih =>
    simp only [byteLength, List.foldl_cons]
    rw [ih, ih (0 + c.utf8Size)]
    omega

@[simp] theorem byteLength_nil : byteLength [] = 0 := rfl

@[simp] theorem byteLength_cons (c : Char) (cs : List Char) :
    byteLength (c :: cs) = c.utf8Size + byteLength cs := by
  rw [byteLength, List.foldl_cons, foldl_utf8Size, Nat.zero_add]

@[simp] theorem byteLength_append (a b : List Char) :
    byteLength (a ++ b) = byteLength a + byteLength b := by
  rw [byteLength, List.foldl_append, foldl_utf8Size]
  rfl

/-- A range of bytes: from `start` up to `stop`, which is not in it. -/
structure Span where
  start : Nat
  stop : Nat
  deriving DecidableEq, Repr

def Span.shift (s : Span) (offset : Nat) : Span :=
  ⟨s.start + offset, s.stop + offset⟩

/-- Counted from one. A number that is too large for its word is the largest one. -/
structure Position where
  line : UInt32
  column : UInt32
  deriving DecidableEq, Repr

/-- The characters in the first `offset` bytes of `cs`, if a character ends there. -/
def takeBytes? (offset : Nat) : List Char → Option (List Char)
  | [] => if offset = 0 then some [] else none
  | c :: rest =>
    if offset = 0 then some []
    else if c.utf8Size ≤ offset then (takeBytes? (offset - c.utf8Size) rest).map (c :: ·)
    else none

def Position.after (before : List Char) : Position where
  line := .ofNatClamp (before.count '\n' + 1)
  column := .ofNatClamp ((before.reverse.takeWhile (· != '\n')).length + 1)

/-- The position of a byte offset. An offset beyond the end, or inside a character, stands for the
end of the text. -/
def Position.ofOffset (source : List Char) (offset : Nat) : Position :=
  .after ((takeBytes? offset source).getD source)

end TemplateEngine.Text

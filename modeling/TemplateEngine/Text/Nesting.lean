/-! Quotes and brackets inside a marker. A character ends a part of a marker only at top level:
outside every quoted string and every pair of brackets. -/
namespace TemplateEngine.Text

/-- Where a scan stands: how many brackets are open, in which quotes, and after a backslash there
or not. -/
structure Nesting where
  depth : Nat := 0
  quote : Option Char := none
  escaped : Bool := false
  deriving DecidableEq, Repr

namespace Nesting

def isTop (n : Nesting) : Bool :=
  n.quote.isNone && n.depth == 0

/-- A closing bracket that nothing opened is passed over, and brackets of the two shapes close each
other. -/
def step (n : Nesting) (c : Char) : Nesting :=
  match n.quote with
  | some q =>
    if n.escaped then { n with escaped := false }
    else if c = '\\' then { n with escaped := true }
    else if c = q then { n with quote := none }
    else n
  | none =>
    if c = '\x22' || c = '\x27' then { n with quote := some c }
    else if c = '(' || c = '[' then { n with depth := n.depth + 1 }
    else if c = ')' || c = ']' then { n with depth := n.depth - 1 }
    else n

/-- The text before the first `stop` at top level and the text after it. `seen` is the reverse of
what was passed on the way to `n`. -/
def cutFrom (stop : Char) (n : Nesting) (seen : List Char) :
    List Char → Option (List Char × List Char)
  | [] => none
  | c :: rest =>
    if n.isTop && c == stop then some (seen.reverse, rest)
    else cutFrom stop (n.step c) (c :: seen) rest

end Nesting

def cutAtTop (stop : Char) (cs : List Char) : Option (List Char × List Char) :=
  Nesting.cutFrom stop {} [] cs

theorem Nesting.cutFrom_eq_some {stop : Char} {n : Nesting} {seen cs before after : List Char}
    (h : cutFrom stop n seen cs = some (before, after)) :
    seen.reverse ++ cs = before ++ stop :: after := by
  induction cs generalizing n seen with
  | nil => cases h
  | cons c rest ih =>
    unfold cutFrom at h
    split at h
    next hc =>
      cases h
      have : c = stop := by simp at hc; exact hc.2
      simp [this]
    next => simpa using ih h

theorem cutAtTop_eq_some {stop : Char} {cs before after : List Char}
    (h : cutAtTop stop cs = some (before, after)) : cs = before ++ stop :: after := by
  simpa [cutAtTop] using Nesting.cutFrom_eq_some h

/-- The parts of `cs` between the separators at top level; there is always at least one. -/
def splitAtTop (sep : Char) (cs : List Char) : List (List Char) :=
  match h : cutAtTop sep cs with
  | some (before, after) =>
    have : after.length < cs.length := by
      rw [cutAtTop_eq_some h, List.length_append, List.length_cons]
      omega
    before :: splitAtTop sep after
  | none => [cs]
termination_by cs.length

end TemplateEngine.Text

import TemplateEngine.Proofs.Bytes.Segments

/-! Reading a source never looks beyond the end of a text or inside a character, whatever the source
is. -/
namespace TemplateEngine

open Text (byteLength slice?)

namespace Text

/-- A place between two characters of a text, or at one of its ends. -/
def IsBoundary (cs : List Char) (place : Nat) : Prop :=
  ∃ before after, cs = before ++ after ∧ byteLength before = place

/-- There is a part of a text from one place to another if no character is cut at either place. -/
theorem isSome_slice?_iff {cs : List Char} {start stop : Nat} :
    (slice? cs start stop).isSome ↔ start ≤ stop ∧ IsBoundary cs start ∧ IsBoundary cs stop := by
  rw [Option.isSome_iff_exists]
  constructor
  · rintro ⟨t, ht⟩
    obtain ⟨before, after, rfl, rfl, rfl⟩ := slice?_eq_some_iff.mp ht
    exact ⟨Nat.le_add_right _ _, ⟨before, t ++ after, rfl, rfl⟩,
      before ++ t, after, (List.append_assoc _ _ _).symm, byteLength_append _ _⟩
  · rintro ⟨hle, ⟨before, rest, rfl, rfl⟩, through, after, hcs, rfl⟩
    obtain ⟨t, rfl, rfl⟩ := exists_of_byteLength_le hcs hle
    exact ⟨t, slice?_of_eq rfl rfl (byteLength_append _ _)⟩

example : slice? "aé".toList 1 2 = none := by decide

end Text

namespace Scanner

open Text (IsBoundary)

/-- The cursor comes to this place before a marker, or to the end of the source. -/
inductive Comes (source : List Char) : (cursor : Nat) → (afterSkip : Bool) → Prop where
  | start : Comes source 0 false
  | next {cursor next : Nat} {afterSkip afterSkip' : Bool} {pieces : List Piece} :
    Comes source cursor afterSkip → cursor < byteLength source →
    round? source cursor afterSkip = some (pieces, some (next, afterSkip')) →
    Comes source next afterSkip'

variable {source : List Char} {cursor : Nat}

/-- A round that starts between two characters finds its pieces. If it leaves something to do, the
cursor has advanced to a place between two characters. -/
theorem advances_of_isBoundary (h : IsBoundary source cursor) (afterSkip : Bool) :
    ∃ pieces next, round? source cursor afterSkip = some (pieces, next) ∧
      ∀ cursor' afterSkip', next = some (cursor', afterSkip') →
        cursor < cursor' ∧ IsBoundary source cursor' := by
  obtain ⟨before, cs, hsource, rfl⟩ := h
  obtain ⟨pieces, next, hround, hleaves⟩ := round?_eq hsource afterSkip
  refine ⟨pieces, next, hround, ?_⟩
  rintro cursor' afterSkip' rfl
  obtain ⟨passed, rest, rfl, hne, rfl, -⟩ := hleaves
  have hpos : 0 < byteLength passed :=
    Nat.pos_of_ne_zero fun hzero => hne (Text.eq_nil_of_byteLength_eq_zero hzero)
  refine ⟨?_, before ++ passed, rest, by rw [hsource, List.append_assoc], rfl⟩
  rw [Text.byteLength_append]
  omega

theorem Comes.isBoundary {afterSkip : Bool} (h : Comes source cursor afterSkip) :
    IsBoundary source cursor := by
  induction h with
  | start => exact ⟨[], source, rfl, rfl⟩
  | next _ _ hround ih =>
    obtain ⟨pieces, next, hround', hnext⟩ := advances_of_isBoundary ih _
    rw [hround] at hround'
    cases hround'
    exact (hnext _ _ rfl).2

end Scanner

/-- Compiling a source, cutting it into segments and reading an operand give the same answers when
every part of a text is taken only if it is there, between two characters, every byte and every
instruction is looked up only if there is one, and every distance is that to a later place: nothing
is ever missing. The cursor of the scanner is always between two characters, and each marker
advances it. -/
theorem reading_in_range (name : String) (source : List Char) (o : CompileOptions)
    (operand : List Char) :
    compile? name source o = .total (compile name source o) ∧
      splitSegments? name source = .total (splitSegments name source) ∧
      Expr.parse? operand = .total (Expr.parse operand) ∧
      ∀ cursor afterSkip, Scanner.Comes source cursor afterSkip →
        Text.IsBoundary source cursor ∧
          ∃ pieces next, Scanner.round? source cursor afterSkip = some (pieces, next) ∧
            ∀ cursor' afterSkip', next = some (cursor', afterSkip') →
              cursor < cursor' ∧ Text.IsBoundary source cursor' := by
  refine ⟨compile?_eq name source o, splitSegments?_eq name source, Expr.parse?_eq operand, ?_⟩
  intro cursor afterSkip hcomes
  exact ⟨hcomes.isBoundary, Scanner.advances_of_isBoundary hcomes.isBoundary afterSkip⟩

end TemplateEngine

import TemplateEngine.Proofs.Meaning.Lowered
import TemplateEngine.Proofs.Syntax.Blanks
import TemplateEngine.Proofs.Syntax.Heads

/-! The unknown names of an operand. Of the names that its paths start with, each unknown one is
reported unless it stands in the arguments of a method of something unknown, which is dropped as a
whole. So nothing is reported if and only if every name is known. -/
namespace TemplateEngine

open TemplateEngine.Expr (Ast Step Head Occurrence stepsOccurrences argumentsOccurrences
  stepsUnknown argumentsUnknown stepsNames argumentsNames)

namespace Names

variable (names : Names)

/-- Whether a name has a slot or is a constant. -/
def knows (name : String) : Bool :=
  (names.slots.lookup? name).isSome || (names.constants.lookup name).isSome

/-- Whether a name is unknown and all names that it stands behind are known. -/
def reports (x : Occurrence) : Bool :=
  !names.knows x.name && x.behind.all names.knows

/-- How the names that are to be reported are reported. -/
def reported (operand : List Char) (xs : List Occurrence) : List String :=
  (xs.filter names.reports).map fun x => unknownText operand x.name

theorem reported_append (operand : List Char) (xs ys : List Occurrence) :
    names.reported operand (xs ++ ys) = names.reported operand xs ++ names.reported operand ys := by
  rw [reported, List.filter_append, List.map_append, reported, reported]

theorem reported_eq (operand : List Char) (xs : List Occurrence) :
    names.reported operand xs =
      ((xs.filter (!names.knows ·.name)).filter (·.behind.all names.knows)).map
        fun x => unknownText operand x.name := by
  rw [reported, List.filter_filter]
  exact congrArg (List.map _) (List.filter_congr fun _ _ => Bool.and_comm _ _)

/-- All unknown names are reported if and only if none of them stands behind another. -/
theorem reported_eq_iff (operand : List Char) (xs : List Occurrence) :
    let unknown := xs.filter (!names.knows ·.name)
    names.reported operand xs = unknown.map (fun x => unknownText operand x.name) ↔
      ∀ x ∈ unknown, x.behind.all names.knows := by
  intro unknown
  rw [reported_eq, ← List.filter_eq_self]
  refine ⟨fun heq => ?_, fun heq => by rw [heq]⟩
  have hlength := congrArg List.length heq
  rw [List.length_map, List.length_map] at hlength
  exact List.filter_sublist.eq_of_length hlength

theorem isSome_root? (s : String) : (names.root? (.name s)).isSome = names.knows s := by
  rw [root?, knows]
  cases names.slots.lookup? s with
  | some slot => rfl
  | none => exact Option.isSome_map

/-- Only a name can be unknown. -/
theorem root?_cases (head : Head) : (∃ s, head = .name s ∧ names.knows s = false) ∨
    head.names.all names.knows ∧ ∃ r, names.root? head = some r := by
  cases head with
  | this => exact .inr ⟨rfl, _, rfl⟩
  | literal v => exact .inr ⟨rfl, _, rfl⟩
  | name s =>
    cases hs : names.knows s with
    | false => exact .inl ⟨s, rfl, hs⟩
    | true =>
      refine .inr ⟨by simp [Head.names, hs], Option.isSome_iff_exists.mp ?_⟩
      rw [isSome_root?, hs]

end Names

namespace Expr

variable (names : Names) (operand : List Char)

theorem Ast.unknown_of_not_knows {s : String} (hs : names.knows s = false) (steps : List Step) :
    (Ast.path (.name s) steps).unknown names operand = [unknownText operand s] := by
  have hroot : names.root? (.name s) = none := by
    rw [← Option.isNone_iff_eq_none, ← Option.not_isSome, names.isSome_root?, hs]
    rfl
  simp only [unknown, hroot]

mutual

/-- Behind an unknown name nothing is reported. -/
theorem Ast.reported_occurrences (behind : List String) (e : Ast) :
    names.reported operand (e.occurrences behind) =
      if behind.all names.knows then e.unknown names operand else [] := by
  match e with
  | .const _ => exact (ite_self _).symm
  | .path head steps =>
    rw [Ast.occurrences, names.reported_append, stepsOccurrences_reported, List.all_append]
    obtain ⟨s, rfl, hs⟩ | ⟨hknown, r, hroot⟩ := names.root?_cases head
    · rw [Ast.unknown_of_not_knows names operand hs]
      cases hbehind : behind.all names.knows <;>
        simp [Names.reported, Names.reports, Head.names, hs, hbehind]
    · have hnone : names.reported operand (head.names.map (⟨·, behind⟩)) = [] := by
        rw [Names.reported, List.map_eq_nil_iff, List.filter_eq_nil_iff, List.forall_mem_map]
        intro s hs
        simp [Names.reports, List.all_eq_true.mp hknown s hs]
      rw [hnone, hknown, Lowering.unknown_of_root? names operand hroot, Bool.and_true,
        List.nil_append]
  | .unary _ inner => exact inner.reported_occurrences behind
  | .binary _ left right =>
    rw [Ast.occurrences, names.reported_append, left.reported_occurrences,
      right.reported_occurrences, Ast.unknown]
    split <;> rfl

theorem Step.reported_occurrences (behind : List String) (step : Step) :
    names.reported operand (step.occurrences behind) =
      if behind.all names.knows then step.unknown names operand else [] := by
  match step with
  | .field _ | .index _ | .key _ => exact (ite_self _).symm
  | .call _ args => exact argumentsOccurrences_reported behind args

theorem stepsOccurrences_reported (behind : List String) (steps : List Step) :
    names.reported operand (stepsOccurrences behind steps) =
      if behind.all names.knows then stepsUnknown names operand steps else [] := by
  match steps with
  | [] => exact (ite_self _).symm
  | step :: rest =>
    rw [stepsOccurrences, names.reported_append, step.reported_occurrences,
      stepsOccurrences_reported behind rest, stepsUnknown]
    split <;> rfl

theorem argumentsOccurrences_reported (behind : List String) (args : List Ast) :
    names.reported operand (argumentsOccurrences behind args) =
      if behind.all names.knows then argumentsUnknown names operand args else [] := by
  match args with
  | [] => exact (ite_self _).symm
  | arg :: rest =>
    rw [argumentsOccurrences, names.reported_append, arg.reported_occurrences,
      argumentsOccurrences_reported behind rest, argumentsUnknown]
    split <;> rfl

end

mutual

/-- Nothing is reported if and only if every name is known. -/
theorem Ast.unknown_eq_nil_iff (e : Ast) :
    e.unknown names operand = [] ↔ ∀ x ∈ e.names, names.knows x := by
  match e with
  | .const _ => exact iff_of_true rfl (List.forall_mem_nil _)
  | .path head steps =>
    rw [Ast.names, List.forall_mem_append]
    obtain ⟨s, rfl, hs⟩ | ⟨hknown, r, hroot⟩ := names.root?_cases head
    · rw [Ast.unknown_of_not_knows names operand hs]
      simp [Head.names, hs]
    · rw [Lowering.unknown_of_root? names operand hroot, stepsUnknown_eq_nil_iff steps,
        and_iff_right (List.all_eq_true.mp hknown)]
  | .unary _ inner => exact inner.unknown_eq_nil_iff
  | .binary _ left right =>
    rw [Ast.unknown, Ast.names, List.append_eq_nil_iff, List.forall_mem_append,
      left.unknown_eq_nil_iff, right.unknown_eq_nil_iff]

theorem Step.unknown_eq_nil_iff (step : Step) :
    step.unknown names operand = [] ↔ ∀ x ∈ step.names, names.knows x := by
  match step with
  | .field _ | .index _ | .key _ => exact iff_of_true rfl (List.forall_mem_nil _)
  | .call _ args => exact argumentsUnknown_eq_nil_iff args

theorem stepsUnknown_eq_nil_iff (steps : List Step) :
    stepsUnknown names operand steps = [] ↔ ∀ x ∈ stepsNames steps, names.knows x := by
  match steps with
  | [] => exact iff_of_true rfl (List.forall_mem_nil _)
  | step :: rest =>
    rw [stepsUnknown, stepsNames, List.append_eq_nil_iff, List.forall_mem_append,
      step.unknown_eq_nil_iff, stepsUnknown_eq_nil_iff rest]

theorem argumentsUnknown_eq_nil_iff (args : List Ast) :
    argumentsUnknown names operand args = [] ↔ ∀ x ∈ argumentsNames args, names.knows x := by
  match args with
  | [] => exact iff_of_true rfl (List.forall_mem_nil _)
  | arg :: rest =>
    rw [argumentsUnknown, argumentsNames, List.append_eq_nil_iff, List.forall_mem_append,
      arg.unknown_eq_nil_iff, argumentsUnknown_eq_nil_iff rest]

end

end Expr

/-- An operand that can be read is lowered to one that means the same. -/
theorem Lowering.exists_ofText (names : Names) (arena : Arena) {text : List Char} {e : Ast}
    (h : Expr.parse text = .ok e) :
    ∃ o lowered, Lowering.ofText names arena text = .ok (o, lowered) ∧
      OperandMeans names lowered.arena e o ∧
      lowered.unknown = e.unknown names (Text.trim text) := by
  obtain ⟨-, hunknown, hmeans⟩ :=
    gives_operandOf names (Text.trim text) e { arena } (List.suffix_rfl (l := arena.nodes))
  refine ⟨_, _, ?_, hmeans, hunknown⟩
  rw [ofText]
  simp only [Expr.parse_trim, h]
  rfl

end TemplateEngine

import TemplateEngine.Proofs.Subject.Spelling
import TemplateEngine.Proofs.Syntax.Reading

/-! The names that the paths of an operand start with. Read off the tokens they are the names that
neither follow a point nor stand for a value; in the tree they come in the same order, each with the
paths in whose method arguments it stands. -/
namespace TemplateEngine.Expr

/-- The names among the tokens of an operand that a path starts with. -/
def headNames : List Token → List String
  | [] => []
  | .punct .dot :: .name _ :: rest => headNames rest
  | .name s :: rest => if s ∈ Text.reserved then headNames rest else s :: headNames rest
  | _ :: rest => headNames rest

/-- A name that a path starts with. `behind` are the names that the paths around it start with,
those in whose method arguments it stands, from the outside in. -/
structure Occurrence where
  name : String
  behind : List String

mutual

/-- The names in a tree that stands behind others, from left to right. -/
def Ast.occurrences (behind : List String) : Ast → List Occurrence
  | .const _ => []
  | .path head steps =>
    head.names.map (⟨·, behind⟩) ++ stepsOccurrences (behind ++ head.names) steps
  | .unary _ operand => operand.occurrences behind
  | .binary _ left right => left.occurrences behind ++ right.occurrences behind

def Step.occurrences (behind : List String) : Step → List Occurrence
  | .call _ args => argumentsOccurrences behind args
  | .field _ | .index _ | .key _ => []

def stepsOccurrences (behind : List String) : List Step → List Occurrence
  | [] => []
  | step :: rest => step.occurrences behind ++ stepsOccurrences behind rest

def argumentsOccurrences (behind : List String) : List Ast → List Occurrence
  | [] => []
  | arg :: rest => arg.occurrences behind ++ argumentsOccurrences behind rest

end

mutual

theorem Ast.map_name_occurrences (behind : List String) (e : Ast) :
    (e.occurrences behind).map (·.name) = e.names := by
  match e with
  | .const _ => rfl
  | .path head steps =>
    rw [Ast.occurrences, List.map_append, List.map_map, stepsOccurrences_names, Ast.names]
    exact congrArg (· ++ stepsNames steps) (List.map_id _)
  | .unary _ operand => exact operand.map_name_occurrences behind
  | .binary _ left right =>
    rw [Ast.occurrences, List.map_append, left.map_name_occurrences, right.map_name_occurrences,
      Ast.names]

theorem Step.map_name_occurrences (behind : List String) (step : Step) :
    (step.occurrences behind).map (·.name) = step.names := by
  match step with
  | .field _ | .index _ | .key _ => rfl
  | .call _ args => exact argumentsOccurrences_names behind args

theorem stepsOccurrences_names (behind : List String) (steps : List Step) :
    (stepsOccurrences behind steps).map (·.name) = stepsNames steps := by
  match steps with
  | [] => rfl
  | step :: rest =>
    rw [stepsOccurrences, List.map_append, step.map_name_occurrences,
      stepsOccurrences_names behind rest, stepsNames]

theorem argumentsOccurrences_names (behind : List String) (args : List Ast) :
    (argumentsOccurrences behind args).map (·.name) = argumentsNames args := by
  match args with
  | [] => rfl
  | arg :: rest =>
    rw [argumentsOccurrences, List.map_append, arg.map_name_occurrences,
      argumentsOccurrences_names behind rest, argumentsNames]

end

/-! The tokens of a form show its names, whatever tokens come after it. -/

theorem headNames_punct {p : Punct} (hp : p ≠ .dot) (ts : List Token) :
    headNames (.punct p :: ts) = headNames ts := by
  cases p <;> first | exact absurd rfl hp | rfl

theorem headNames_member (s : String) (ts : List Token) :
    headNames (.punct .dot :: .name s :: ts) = headNames ts := by
  rfl

theorem Grammar.Literal.headNames {t : Token} {v : Value} (h : Literal t v) (us : List Token) :
    headNames (t :: us) = headNames us := by
  cases h <;> rfl

theorem Grammar.Identifier.headNames {t : Token} {head : Head} (h : Identifier t head)
    (us : List Token) : headNames (t :: us) = head.names ++ headNames us := by
  cases h with
  | this => rfl
  | name hs =>
    rw [Expr.headNames, if_neg hs]
    rfl

mutual

theorem Grammar.Layered.headNames {layers : List Layer} {ts : List Token} {ast : Ast} :
    Layered layers ts ast → ∀ us, headNames (ts ++ us) = ast.names ++ headNames us
  | .prefixed h, us => h.headNames us
  | .operators h hmore, us => by
    rw [List.append_assoc, h.headNames, hmore.headNames]

theorem Grammar.Continued.headNames {l : Layer} {tighter : List Layer} {ts : List Token}
    {left ast : Ast} : Continued l tighter left ts ast →
      ∀ us, left.names ++ headNames (ts ++ us) = ast.names ++ headNames us
  | .done, _ => rfl
  | .operator (p := p) hp h hmore, us => by
    have hdot : p ≠ .dot := by
      rintro rfl
      cases hp
    rw [List.cons_append, headNames_punct hdot, List.append_assoc, h.headNames, ← List.append_assoc]
    exact hmore.headNames us

theorem Grammar.Prefixed.headNames {ts : List Token} {ast : Ast} :
    Prefixed ts ast → ∀ us, headNames (ts ++ us) = ast.names ++ headNames us
  | .not h, us => h.headNames us
  | .negInt h, us => h.headNames us
  | .negFloat h, us => h.headNames us
  | .neg h _, us => h.headNames us
  | .postfixed h, us => h.headNames us

theorem Grammar.Postfixed.headNames {ts : List Token} {ast : Ast} :
    Postfixed ts ast → ∀ us, headNames (ts ++ us) = ast.names ++ headNames us
  | .parens h, us => by
    rw [List.cons_append, headNames_punct (p := .openParen) (by decide), List.append_assoc,
      h.headNames]
    rfl
  | .constant h, us => h.headNames us
  | .literal h hmore, us => (h.headNames _).trans (hmore.headNames us)
  | .identifier h hmore, us => by
    rw [List.cons_append, h.headNames, hmore.headNames, ← List.append_assoc, Ast.names]

theorem Grammar.Accessors.headNames {ts : List Token} {more : List Step} :
    Accessors ts more → ∀ us, headNames (ts ++ us) = stepsNames more ++ headNames us
  | .nil, _ => rfl
  | .cons h hmore, us => by
    rw [List.append_assoc, h.headNames, hmore.headNames, stepsNames, List.append_assoc]

theorem Grammar.Accessor.headNames {ts : List Token} {s : Step} :
    Accessor ts s → ∀ us, headNames (ts ++ us) = s.names ++ headNames us
  | .field _, _ => rfl
  | .call _, _ => rfl
  | .callWith h, us => by
    simp only [List.cons_append, List.append_assoc]
    rw [headNames_member, headNames_punct (p := .openParen) (by decide), h.headNames]
    rfl
  | .index _, _ => rfl
  | .indexFromEnd _, _ => rfl
  | .key _, _ => rfl

theorem Grammar.Arguments.headNames {ts : List Token} {args : List Ast} :
    Arguments ts args → ∀ us, headNames (ts ++ us) = argumentsNames args ++ headNames us
  | .last h, us => by
    rw [h.headNames, argumentsNames, argumentsNames, List.append_nil]
  | .cons h hmore, us => by
    rw [List.append_assoc, h.headNames, List.cons_append,
      headNames_punct (p := .comma) (by decide), hmore.headNames, argumentsNames, List.append_assoc]

end

/-- The names in the tree of an operand are those among its tokens. -/
theorem headNames_of_parse {text : List Char} {ts : List Token} {e : Ast}
    (hts : tokens text = .ok ts) (he : parse text = .ok e) :
    (e.occurrences []).map (·.name) = headNames ts := by
  rw [parse, hts] at he
  have hread := (ofTokens_eq_ok_iff.mp he).headNames []
  rw [List.append_nil] at hread
  rw [e.map_name_occurrences, hread]
  exact (List.append_nil _).symm

end TemplateEngine.Expr

import TemplateEngine.Expr.Token
import TemplateEngine.Host
import TemplateEngine.Text.Position

/-! What is structurally wrong with a source text. Only such faults stop a compilation: an unknown
name does not, it becomes a note in the output. -/
namespace TemplateEngine

inductive BlockKind where
  | cond
  | loop
  deriving DecidableEq, Repr

def BlockKind.keyword : BlockKind → String
  | .cond => "if"
  | .loop => "for"

inductive BranchKind where
  | elsif
  | otherwise
  deriving DecidableEq, Repr

def BranchKind.keyword : BranchKind → String
  | .elsif => "elsif"
  | .otherwise => "else"

inductive HeaderError where
  | templateName (name : String)
  | parameterName (name : String)
  deriving DecidableEq, Repr

def HeaderError.message : HeaderError → String
  | .templateName name => "invalid template name `" ++ name ++ "`"
  | .parameterName name => "invalid parameter name `" ++ name ++ "`"

inductive Fault where
  | unterminatedMarker
  | unknownMarker (text : String)
  | unmatchedCloser (found : BlockKind)
  | mismatchedCloser (expected found : BlockKind)
  | unclosedBlock (kind : BlockKind) (opened : Text.Position)
  | branchOutsideIf (branch : BranchKind)
  | branchAfterElse (branch : BranchKind)
  | invalidExpression (text : String) (reason : Expr.SyntaxError)
  | invalidName (name : String)
  | invalidCodePoint (text : String)
  | unknownCallTarget (name : String)
  | unknownCallParameter (template param : String)
  | noOperationProvider
  | unknownOperation (name : String)
  | operationArity (name : String) (arity : Arity)
  | duplicateParameter (name : String)
  | unterminatedSegment
  | nestedSegment (outer : String)
  | straySegmentCloser
  | duplicateTemplate (name : String)
  | invalidSegmentHeader (reason : HeaderError)

private def lineColumn (p : Text.Position) : String :=
  toString p.line ++ ":" ++ toString p.column

def Fault.message : Fault → String
  | .unterminatedMarker => "marker is never closed with `>`"
  | .unknownMarker text => "unknown marker `<" ++ text ++ ">`"
  | .unmatchedCloser found => "`<." ++ found.keyword ++ ">` does not close any block"
  | .mismatchedCloser expected found =>
    "`<." ++ found.keyword ++ ">` cannot close the open `" ++ expected.keyword ++ "` block"
  | .unclosedBlock kind opened =>
    "unclosed `" ++ kind.keyword ++ "` block opened at " ++ lineColumn opened
  | .branchOutsideIf branch => "`<:" ++ branch.keyword ++ ">` outside of an `if` block"
  | .branchAfterElse branch => "`<:" ++ branch.keyword ++ ">` after `<:else>`"
  | .invalidExpression text reason => "invalid expression `" ++ text ++ "`: " ++ reason.message
  | .invalidName name => "invalid variable name `" ++ name ++ "`"
  | .invalidCodePoint text => "invalid code point `" ++ text ++ "`"
  | .unknownCallTarget name => "unknown call target `" ++ name ++ "`"
  | .unknownCallParameter template param =>
    "template `" ++ template ++ "` has no parameter `" ++ param ++ "`"
  | .noOperationProvider => "`exec` used without an operation provider"
  | .unknownOperation name => "unknown operation `" ++ name ++ "`"
  | .operationArity name .unary => "operation `" ++ name ++ "` requires an argument"
  | .operationArity name .nullary => "operation `" ++ name ++ "` takes no argument"
  | .duplicateParameter name => "duplicate parameter `" ++ name ++ "`"
  | .unterminatedSegment => "template segment is never closed with `<.otx>`"
  | .nestedSegment outer => "template segment opened inside segment `" ++ outer ++ "`"
  | .straySegmentCloser => "`<.otx>` does not close any segment"
  | .duplicateTemplate name => "duplicate template `" ++ name ++ "`"
  | .invalidSegmentHeader reason => "invalid segment header: " ++ reason.message

/-- A fault, the template it is in and the place. -/
structure Malformed where
  template : String
  span : Text.Span
  position : Text.Position
  fault : Fault

namespace Malformed

/-- The fault of a marker in `source`; its position is where the marker starts. -/
def ofSpan (template : String) (source : List Char) (span : Text.Span) (fault : Fault) :
    Malformed where
  template
  span
  position := .ofOffset source span.start
  fault

def message (e : Malformed) : String :=
  e.template ++ ":" ++ lineColumn e.position ++ ": " ++ e.fault.message

/-- The same fault seen from a text that holds the template's source at `offset`. An unclosed block
tells its own position once more. -/
def rebase (e : Malformed) (offset : Nat) (whole : List Char) : Malformed :=
  let span := e.span.shift offset
  let position := Text.Position.ofOffset whole span.start
  let fault :=
    match e.fault with
    | .unclosedBlock kind _ => .unclosedBlock kind position
    | fault => fault
  { template := e.template, span, position, fault }

end Malformed

end TemplateEngine

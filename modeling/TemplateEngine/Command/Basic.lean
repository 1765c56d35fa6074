import TemplateEngine.Command.Binding
import TemplateEngine.Command.Files
import TemplateEngine.Program.Listing
import TemplateEngine.Segment.Read

/-! The commands: each reads one file of templates and compiles all of it first. -/
namespace TemplateEngine.Command

def readText (files : Files) (path : String) : Except CommandError String :=
  match files.read path with
  | .error .notFound => .error (.notFound path)
  | .error .permissionDenied => .error (.permissionDenied path)
  | .error (.other reason) => .error (.read path reason)
  | .ok bytes =>
    match String.fromUTF8? bytes with
    | some text => .ok text
    | none => .error (.invalidText path)

/-- The templates of a file, alive in a catalog of their own. The file's name stands for faults
between templates. -/
def load (files : Files) (path : String) : Except CommandError (Catalog × Registry) := do
  let source := (← readText files path).toList
  match readTemplates {} path source {} with
  | .ok (catalog, _, registry) => return (catalog, registry)
  | .error e => throw (.malformed path source e)

def find (path : String) (r : Registry) (name : String) : Except CommandError Template :=
  (r.resolve? name).elim (.error (.unknownTemplate path name)) .ok

def check (files : Files) (path : String) : Except CommandError Nat := do
  return (← load files path).2.size

def dump (files : Files) (path : String) (name : Option String) :
    Except CommandError String := do
  let (_, registry) ← load files path
  let templates ←
    match name with
    | some name => do pure [← find path registry name]
    | none => (registry.names.mergeSort (· ≤ ·)).mapM (find path registry)
  return "\n".intercalate (templates.map (·.listing))

def bindAll (c : Context) : List String → Except CommandError Context
  | [] => .ok c
  | text :: rest => do
    let (name, value) ← Binding.read text
    match c.set name value with
    | .ok c => bindAll c rest
    | .error e => throw (.bind e)

/-- What there is to run: a template of a file, and a context in which its parameters are set. -/
def prepare (files : Files) (path name : String) (bindings : List String) :
    Except CommandError (Catalog × Template × Context) := do
  let (catalog, registry) ← load files path
  let t ← find path registry name
  return (catalog, t, ← bindAll (.fresh t) bindings)

/-- Writes what a template renders as. Text that was written before a failure remains. -/
def render {σ : Type} [Sink σ] (files : Files) (path name : String) (bindings : List String)
    (sink : σ) : σ × Except CommandError Unit :=
  match prepare files path name bindings with
  | .error e => (sink, .error e)
  | .ok (catalog, t, c) =>
    let outcome := run { catalog } {} t c sink
    (outcome.sink, outcome.result.mapError .run)

end TemplateEngine.Command

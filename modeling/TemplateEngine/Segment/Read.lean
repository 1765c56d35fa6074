import TemplateEngine.Catalog
import TemplateEngine.Compile.Basic
import TemplateEngine.Segment.Split

/-! Compiling all segments of a source file into one registry. A call of an earlier segment is bound
when the caller is compiled; a call of a later one, or of the segment itself, looks the name up in
the registry when it is made. -/
namespace TemplateEngine

/-- What all segments of a file are compiled against. -/
structure ReadOptions where
  constants : List (String × Value) := []
  operations : Option OperationTable := none

/-- The options of one segment: the segments before it are known, and all names of the file can be
called. -/
def ReadOptions.forSegment (o : ReadOptions) (names : List String) (id : RegistryId)
    (known : Registry) (s : Segment) : CompileOptions where
  params := s.params
  constants := o.constants
  known
  registry := some id
  forward := names
  operations := o.operations

/-- Compiles segments one after another. The fault of a segment is told by its place in the file. -/
def readSegments (source : List Char) (o : ReadOptions) (names : List String) (id : RegistryId)
    (c : Catalog) (known : Registry) : List Segment → Except Malformed (Catalog × Registry)
  | [] => .ok (c, known)
  | s :: rest =>
    match compile s.name s.body (o.forSegment names id known s) with
    | .error e => .error (e.rebase s.offset source)
    | .ok p =>
      let (c, t) := c.publish p
      readSegments source o names id c (known.register s.name t) rest

def readTemplates (c : Catalog) (sourceName : String) (source : List Char) (o : ReadOptions) :
    Except Malformed (Catalog × RegistryId × Registry) := do
  let segments ← splitSegments sourceName source
  let (c, id) := c.reserve
  let (c, r) ← readSegments source o (segments.map (·.name)) id c {} segments
  return (c.keep id r, id, r)

end TemplateEngine

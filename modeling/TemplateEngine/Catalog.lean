import TemplateEngine.Registry

/-! All templates of a program and the registries that are alive. Templates refer to each other and
to registries by number only, so a registry can go while templates that look into it stay. -/
namespace TemplateEngine

structure Catalog where
  templates : Array Template := #[]
  registries : Array (Option Registry) := #[]

namespace Catalog

def template? (c : Catalog) (id : TemplateId) : Option Template :=
  c.templates[id]?

def registry? (c : Catalog) (id : RegistryId) : Option Registry :=
  c.registries[id]?.join

/-- Gives a program an identity of its own. -/
def publish (c : Catalog) (p : Program) : Catalog × Template :=
  let t : Template := { p with id := c.templates.size }
  ({ c with templates := c.templates.push t }, t)

/-- A place for a registry that is not complete yet, so that its templates can refer to it. -/
def reserve (c : Catalog) : Catalog × RegistryId :=
  ({ c with registries := c.registries.push none }, c.registries.size)

def keep (c : Catalog) (id : RegistryId) (r : Registry) : Catalog :=
  { c with registries := c.registries.setIfInBounds id (some r) }

/-- Ends a registry. Its templates stay. -/
def drop (c : Catalog) (id : RegistryId) : Catalog :=
  { c with registries := c.registries.setIfInBounds id none }

end Catalog

end TemplateEngine

import TemplateEngine.Registry

/-! What a source is compiled against. -/
namespace TemplateEngine

/-- `params` take the first slots. A call goes to a template of `known` if there is one of that
name, else to one of the names in `forward`, which is then looked up in `registry` at run time. -/
structure CompileOptions where
  params : List String := []
  constants : List (String × Value) := []
  known : Registry := {}
  registry : Option RegistryId := none
  forward : List String := []
  operations : Option OperationTable := none

end TemplateEngine

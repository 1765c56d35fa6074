/-! The files that commands read. -/
namespace TemplateEngine

inductive FileError where
  | notFound
  | permissionDenied
  | other (reason : String)
  deriving DecidableEq, Repr

structure Files where
  read : String → Except FileError ByteArray

end TemplateEngine

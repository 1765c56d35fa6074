import TemplateEngine.Malformed
import TemplateEngine.Run.Machine

/-! Why a command failed. -/
namespace TemplateEngine

/-- A malformed file comes with its text, so that a report can point into it. -/
inductive CommandError where
  | notFound (path : String)
  | permissionDenied (path : String)
  | invalidText (path : String)
  | read (path reason : String)
  | malformed (path : String) (source : List Char) (error : Malformed)
  | unknownTemplate (path name : String)
  | invalidBinding (text : String)
  | bind (error : ContextError)
  | run (error : RunError)

def CommandError.message : CommandError → String
  | .notFound path => "cannot find file '" ++ path ++ "'"
  | .permissionDenied path => "permission denied reading '" ++ path ++ "'"
  | .invalidText path => "'" ++ path ++ "' contains invalid UTF-8 data"
  | .read path reason => "error reading '" ++ path ++ "': " ++ reason
  | .malformed path _ error => path ++ ": " ++ error.message
  | .unknownTemplate path name => "'" ++ path ++ "' has no template named `" ++ name ++ "`"
  | .invalidBinding text => "invalid parameter `" ++ text ++ "`: expected name=value"
  | .bind error => error.message
  | .run error => error.message

end TemplateEngine

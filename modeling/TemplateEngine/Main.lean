import TemplateEngine.Command.Line

/-! The program: it reads files, and writes what the command line answers. What is malformed in a
file is told in one line and not drawn. -/
namespace TemplateEngine

def readBytes (path : String) : IO (Except FileError ByteArray) := do
  try
    return .ok (← IO.FS.readBinFile path)
  catch e =>
    match e with
    | .noFileOrDirectory .. => return .error .notFound
    | .permissionDenied .. => return .error .permissionDenied
    | .inappropriateType _ code details =>
      return .error (.other (details ++ " (os error " ++ toString code ++ ")"))
    | e => return .error (.other (toString e))

end TemplateEngine

open TemplateEngine in
def main (args : List String) : IO UInt32 := do
  let path := (args.drop 1).head?.getD ""
  let bytes ← readBytes path
  let reply := CommandLine.run ⟨fun _ => bytes⟩ args
  IO.print reply.output
  IO.eprint (reply.errorText fun _ _ => none)
  return reply.status.toUInt32

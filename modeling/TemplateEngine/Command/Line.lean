import TemplateEngine.Command.Basic
import TemplateEngine.Command.Report

/-! The command line. -/
namespace TemplateEngine.CommandLine

inductive Complaint where
  | arguments (text : String)
  | command (error : CommandError)

def Complaint.text (draw : Drawing) : Complaint → String
  | .arguments text => text
  | .command error => error.report draw

structure Reply where
  output : String := ""
  complaint : Option Complaint := none

namespace Reply

def ofExcept : Except CommandError String → Reply
  | .ok output => { output }
  | .error e => { complaint := some (.command e) }

def status (r : Reply) : Nat :=
  if r.complaint.isSome then 1 else 0

def errorText (draw : Drawing) (r : Reply) : String :=
  (r.complaint.map (Complaint.text draw)).getD ""

end Reply

def version : String := "0.1.0"

def lines (ls : List String) : String :=
  String.join (ls.map (· ++ "\n"))

def usage : String :=
  lines [
    "otx - template compiler and interpreter",
    "",
    "Usage: otx <command> [options]",
    "",
    "Commands:",
    "  render <file> <template> [name=value ...]",
    "                         Render one template to stdout",
    "  check <file>           Compile every template in a file",
    "  dump <file> [template] Print instruction listings",
    "  help                   Show this message",
    "",
    "Set RUST_LOG (e.g. RUST_LOG=otx_eval=debug) for tracing output."]

def renderUsage : String :=
  lines [
    "Usage: otx render <file> <template> [name=value ...]",
    "",
    "Values are typed: 42, 2.5, true, false, null, \"quoted text\";",
    "anything else is passed as a string."]

def misuse (text : String) : Reply :=
  { complaint := some (.arguments text) }

/-- Answers an invocation with the given arguments. Arguments that a command has no use for are
ignored. -/
def run (files : Files) : List String → Reply
  | [] => { output := usage }
  | "render" :: path :: name :: bindings =>
    let (sink, result) := Command.render files path name bindings ({} : TextSink)
    { Reply.ofExcept (result.map fun _ => "") with output := sink.text }
  | "render" :: _ => misuse renderUsage
  | "check" :: path :: _ =>
    .ofExcept ((Command.check files path).map fun n => "ok: " ++ toString n ++ " templates\n")
  | "check" :: _ => misuse "Usage: otx check <file>\n"
  | "dump" :: path :: rest => .ofExcept (Command.dump files path rest.head?)
  | "dump" :: _ => misuse "Usage: otx dump <file> [template]\n"
  | "help" :: _ | "--help" :: _ | "-h" :: _ => { output := usage }
  | "--version" :: _ | "-V" :: _ => { output := "otx " ++ version ++ "\n" }
  | command :: _ =>
    { output := usage, complaint := some (.arguments ("Unknown command: " ++ command ++ "\n\n")) }

end TemplateEngine.CommandLine

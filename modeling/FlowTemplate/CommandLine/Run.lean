/-
The command line as a function: a request is read off the arguments, and what its command has to say
is put as a terminal shows it.
-/
import FlowTemplate.CommandLine.Request
import FlowTemplate.CommandLine.Table
import FlowTemplate.Config.Notation

namespace FlowTemplate.CommandLine

/-- Whether an escape sequence of a terminal goes on with the character without ending. -/
def isParameter (c : Char) : Bool := c = ';' || c = '?' || c.isDigit

/-- An escape sequence of a terminal: a bracket behind the escape character, parameters, and one
letter. -/
def readEscape : Recogniser Unit := fun text => do
  let rest ← Text.after? ['\x1b', '['] text
  match rest.dropWhile isParameter with
  | c :: rest => if c.isAlpha then some ((), rest) else none
  | [] => none

/-- The text without escape sequences of a terminal. -/
def stripEscapes (text : Text) : Text := Text.replace readEscape (fun _ => []) text

/-- The outcome as it is shown: no escape sequences, and of what is told of a failure the first line. -/
def Outcome.shown (outcome : Outcome) : Outcome :=
  { outcome with
    output := stripEscapes outcome.output
    error? := outcome.error?.map fun text => (stripEscapes text).takeWhile (· ≠ '\n') }

/-- The version of the program. -/
def version : Text := "0.1.0".toList

/-- What the version option prints. -/
def versionLine : Text := "atflow ".toList ++ version ++ ['\n']

/-- Compiles a template and prints which control flow is left in it. -/
def CheckRequest.run (request : CheckRequest) (workspace : Workspace) : Outcome :=
  match request.unresolved Config.reader workspace with
  | .error failure => (failed Config.reader workspace.tree failure).shown
  | .ok found =>
    let name := request.input.toText
    match found with
    | [] =>
      let line := "OK ".toList ++ name ++ ": all control flow compiled\n".toList
      ⟨0, line, none, workspace.tree⟩
    | found => ⟨1, Table.render name found, none, workspace.tree⟩

/-- Runs a command line. -/
def run (arguments : List Text) (workspace : Workspace) : Except WriteFault Outcome :=
  match Request.ofArguments arguments with
  | .wrong => .ok ⟨2, [], none, workspace.tree⟩
  | .nothing | .help => .ok ⟨0, [], none, workspace.tree⟩
  | .version => .ok ⟨0, versionLine, none, workspace.tree⟩
  | .compile request => (request.run Config.reader workspace).map Outcome.shown
  | .check request => .ok (request.run workspace)

end FlowTemplate.CommandLine

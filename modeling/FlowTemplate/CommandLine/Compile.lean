/-
The commands as functions: from what is asked for and the files to what is to be printed, the exit
code and the files afterwards. Everything is read and compiled before a file is written. How
configurations are read is up to a reader.
-/
import FlowTemplate.Config.File
import FlowTemplate.Unresolved

namespace FlowTemplate.CommandLine

variable {Cause Flaw : Type}

/-- What a run leaves behind: the exit code, the text to print, the text that tells about a failure,
and the files. -/
structure Outcome where
  exitCode : Nat
  output : Text
  error? : Option Text
  tree : FileTree

/-- A request to compile a template. -/
structure CompileRequest where
  input : Path
  output? : Option Path
  environment? : Option Text
  minify? : Option Bool
  config? : Option Path
  deriving DecidableEq, Repr

/-- A request to list the control flow that is left in a compiled template. -/
structure CheckRequest where
  input : Path
  config? : Option Path
  deriving DecidableEq, Repr

/-- What is told about a failure. -/
def failureText (reader : Config.Reader Cause Flaw) (failure : FileFailure Cause Flaw) : Text :=
  let lead := if failure.isExpected then "Error: ".toList else "Unexpected error: ".toList
  lead ++ failure.message reader.wording

/-- The outcome of a failure: nothing is printed, and no file is touched. -/
def failed (reader : Config.Reader Cause Flaw) (tree : FileTree) (failure : FileFailure Cause Flaw) :
    Outcome :=
  ⟨1, [], some (failureText reader failure), tree⟩

namespace CompileRequest

/-- The options to compile with: those of the environment, and minification as it was asked for. -/
def options (request : CompileRequest) (reader : Config.Reader Cause Flaw) (workspace : Workspace) :
    Except (FileFailure Cause Flaw) Options := do
  let options ← reader.options workspace request.config? request.environment?
  return { options with minify := request.minify?.getD options.minify }

/-- The compiled template. -/
def compiled (request : CompileRequest) (reader : Config.Reader Cause Flaw) (workspace : Workspace) :
    Except (FileFailure Cause Flaw) Text := do
  workspace.compileFile (← request.options reader workspace) request.input

/-- Compiles a template and prints it or writes it to a file. -/
def run (request : CompileRequest) (reader : Config.Reader Cause Flaw) (workspace : Workspace) :
    Except WriteFault Outcome :=
  match request.compiled reader workspace with
  | .error failure => .ok (failed reader workspace.tree failure)
  | .ok compiled =>
    match request.output? with
    | none => .ok ⟨0, compiled, none, workspace.tree⟩
    | some path => do
      let tree ← workspace.write path (Text.toBytes compiled)
      return ⟨0, [], none, tree⟩

end CompileRequest

/-- The control flow that is left in the compiled template. -/
def CheckRequest.unresolved (request : CheckRequest) (reader : Config.Reader Cause Flaw)
    (workspace : Workspace) : Except (FileFailure Cause Flaw) (List Unresolved) := do
  let options ← reader.options workspace request.config? none
  return Unresolved.find (← workspace.compileFile options request.input)

end FlowTemplate.CommandLine

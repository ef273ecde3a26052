/-
The notation that the program reads configurations in: YAML, checked by the schema. No theorem is
about this reader; what holds of the program holds for any other.
-/
import FlowTemplate.Config.Environment
import FlowTemplate.Config.File
import FlowTemplate.Yaml.Document

namespace FlowTemplate

namespace Config

/-- How many collections inside each other a configuration makes use of. -/
def usedDepth : Nat := 4

/-- The reader of the program. -/
def reader : Reader Yaml.ScalarFault (List Issue) where
  parse text :=
    match Yaml.read usedDepth text with
    | .ok value => .ok value
    | .error .malformed => .error .malformed
    | .error (.scalar fault) => .error (.other fault)
  validate := ofEntries
  wording := Yaml.ScalarFault.message

end Config

/-- What keeps the program from compiling a file. -/
abbrev Failure : Type := FileFailure Yaml.ScalarFault (List Config.Issue)

/-- The wording of a failure. -/
def Failure.message (failure : Failure) : Text := FileFailure.message Config.reader.wording failure

/-- The configuration at a path, or the nearest one, or the defaults. -/
def Workspace.loadConfig (workspace : Workspace) (path? : Option Path) : Except Failure Config :=
  Config.reader.resolve workspace path?

end FlowTemplate

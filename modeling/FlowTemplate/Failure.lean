/-
What can keep a template file from being compiled: a file that is missing or cannot be read, or a
configuration that is wrong. What a reader of configurations finds wrong is of kinds of its own: the
causes for which a text has no value, and the flaws of a value.
-/
import FlowTemplate.Config.Basic
import FlowTemplate.Fault
import FlowTemplate.Files.Path
import FlowTemplate.Text.Utf8

namespace FlowTemplate

variable {Cause Flaw : Type}

/-- A cause for which a template file is not compiled. -/
inductive FileFailure (Cause Flaw : Type) where
  | templateNotFound (path : Text)
  | configNotFound (path : Text)
  /-- A directory stands where a file is to be read. -/
  | isDirectory (path : Text)
  | undecodable (fault : Utf8Fault)
  /-- The configuration is not written in its notation. -/
  | unparsable (path : Text)
  /-- A part of the configuration has no value. -/
  | badScalar (cause : Cause)
  | notMapping (path : Text)
  /-- A key of the configuration is no text. -/
  | keyNotText
  | invalid (path : Text) (flaw : Flaw)
  | unknownEnvironment (unknown : Config.UnknownEnvironment)
  /-- The template cannot be compiled. -/
  | template (fault : Fault)

namespace FileFailure

/-- The wording of a failure, given that of the causes. -/
def message (wording : Cause → Text) : FileFailure Cause Flaw → Text
  | templateNotFound path => "Template not found: ".toList ++ path
  | configNotFound path => "Config file not found: ".toList ++ path
  | isDirectory path => "[Errno 21] Is a directory: ".toList ++ path.quoted
  | undecodable fault => fault.message
  | unparsable path => "Failed to parse ".toList ++ path
  | badScalar cause => wording cause
  | notMapping path => path ++ " must contain a mapping at the top level".toList
  | keyNotText => "keywords must be strings".toList
  | invalid path _ => "Invalid config in ".toList ++ path
  | unknownEnvironment unknown => unknown.message.escaped
  | template fault => fault.message

/-- Whether the failure is one that the user is expected to cause and to mend. -/
def isExpected : FileFailure Cause Flaw → Bool
  | templateNotFound _ | configNotFound _ | unparsable _ | notMapping _ | invalid _ _
  | unknownEnvironment _ => true
  | isDirectory _ | undecodable _ | badScalar _ | keyNotText | template _ => false

end FileFailure

end FlowTemplate

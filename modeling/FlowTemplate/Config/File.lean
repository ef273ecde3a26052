/-
The configuration file: where it is looked for and how it is read. Unless a path is given, it is
the nearest one in the working directory and the directories around it; without any, the defaults
hold. The notation of values and the check of them are not known here: they are given by a reader.
-/
import FlowTemplate.Failure
import FlowTemplate.Files.Tree
import FlowTemplate.Value

namespace FlowTemplate

variable {Cause Flaw : Type}

namespace Config

/-- The name of the configuration file. -/
def fileName : Text := "atflow.yaml".toList

/-- The text of a configuration. A character that the end of the file cuts off is reported by
itself, and its offset counts from its own start. -/
def decode (bytes : List UInt8) : Except Utf8Fault Text :=
  match Utf8.decodeFrom 0 bytes with
  | .ok text => .ok (Text.unifyLineEnds text)
  | .error fault =>
    .error (if fault.reason = .unexpectedEnd then { fault with offset := 0 } else fault)

/-- Whether an entry has a text as its key. -/
def hasTextKey : Scalar × Value → Bool
  | (.text _, _) => true
  | _ => false

/-- The entries that a value stands for as a configuration. What counts as nothing has none. -/
def entries? : Value → Option (List (Scalar × Value))
  | .mapping entries => some entries
  | value => if value.isNothing then some [] else none

/-- Why a text has no value: it is not in the notation, or for some other cause. -/
inductive Unread (Cause : Type) where
  | malformed
  | other (cause : Cause)

/-- What reads configurations: two partial functions, one from texts to values and one from the
entries of a mapping to configurations, and the wording of the causes of the first. -/
structure Reader (Cause Flaw : Type) where
  parse : Text → Except (Unread Cause) Value
  validate : List (Scalar × Value) → Except Flaw Config
  wording : Cause → Text

namespace Reader

/-- The value that the text of a configuration spells. -/
def readValue (reader : Reader Cause Flaw) (path text : Text) : Except (FileFailure Cause Flaw) Value :=
  match reader.parse text with
  | .ok value => .ok value
  | .error .malformed => .error (.unparsable path)
  | .error (.other cause) => .error (.badScalar cause)

/-- The configuration that a value spells. -/
def ofValue (reader : Reader Cause Flaw) (path : Text) (value : Value) :
    Except (FileFailure Cause Flaw) Config :=
  match entries? value with
  | none => .error (.notMapping path)
  | some entries =>
    if entries.all hasTextKey then (reader.validate entries).mapError (.invalid path)
    else .error .keyNotText

/-- The configuration in what is found at a path. -/
def load (reader : Reader Cause Flaw) (path : Text) :
    Option FileNode → Except (FileFailure Cause Flaw) Config
  | none => .error (.configNotFound path)
  | some .directory => .error (.isDirectory path)
  | some (.file bytes) => do
    let text ← (decode bytes).mapError .undecodable
    reader.ofValue path (← reader.readValue path text)

end Reader

end Config

namespace Workspace

/-- The nearest configuration file in a directory and those around it. -/
def findConfigIn (tree : FileTree) (directory : List Text) : Option (List Text) :=
  let places := (List.range (directory.length + 1)).reverse.map fun n =>
    directory.take n ++ [Config.fileName]
  places.find? fun place => (tree.find? place).isSome

/-- The nearest configuration file seen from a path. -/
def findConfig (workspace : Workspace) (start : Path) : Option (List Text) :=
  match workspace.resolve start with
  | .outside => none
  | .inside directory => findConfigIn workspace.tree directory

/-- The text of the template at a path. -/
def readTemplate (workspace : Workspace) (path : Path) : Except (FileFailure Cause Flaw) Text :=
  match workspace.node? path with
  | none => .error (.templateNotFound path.toText)
  | some .directory => .error (.isDirectory path.toText)
  | some (.file bytes) => (Text.ofBytes bytes).mapError .undecodable

/-- The template at a path, compiled. -/
def compileFile (workspace : Workspace) (options : Options) (path : Path) :
    Except (FileFailure Cause Flaw) Text := do
  let template ← workspace.readTemplate path
  (options.compile template).mapError .template

end Workspace

namespace Config.Reader

/-- The configuration at a path, or the nearest one, or the defaults. -/
def resolve (reader : Reader Cause Flaw) (workspace : Workspace) (path? : Option Path) :
    Except (FileFailure Cause Flaw) Config :=
  match path? with
  | some path => reader.load path.toText (workspace.node? path)
  | none =>
    match workspace.findConfig ⟨false, []⟩ with
    | none => .ok Config.default
    | some place =>
      reader.load (workspace.tree.absoluteName place) (workspace.tree.find? place)

/-- The options of an environment of the configuration. -/
def options (reader : Reader Cause Flaw) (workspace : Workspace) (path? : Option Path)
    (environment? : Option Text) : Except (FileFailure Cause Flaw) Options := do
  let config ← reader.resolve workspace path?
  (config.active environment?).mapError .unknownEnvironment

end Config.Reader

end FlowTemplate

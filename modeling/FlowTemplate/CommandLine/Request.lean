/-
How requests are written on a command line. Both commands take one template; of an option that is
given more than once the last counts. What the commands do is said of requests alone.
-/
import FlowTemplate.CommandLine.Arguments
import FlowTemplate.CommandLine.Compile

namespace FlowTemplate.CommandLine

/-- What a command line asks for. -/
inductive Request where
  /-- The arguments are wrong, or there are none. -/
  | wrong
  | nothing
  | help
  | version
  | compile (request : CompileRequest)
  | check (request : CheckRequest)
  deriving DecidableEq, Repr

/-- What an option can mean. -/
inductive Meaning where
  | output
  | environment
  | minify
  | noMinify
  | config
  | verbose
  | version
  | help
  deriving DecidableEq, Repr

namespace Request

/-- The options in front of a command. -/
def generalForms : List (OptionForm Meaning) :=
  [⟨.version, ["--version"], false⟩, ⟨.help, ["--help"], false⟩]

/-- The options of both commands. -/
def sharedForms : List (OptionForm Meaning) :=
  [⟨.config, ["-c", "--config"], true⟩, ⟨.verbose, ["-v", "--verbose"], false⟩,
    ⟨.help, ["--help"], false⟩]

/-- The options of the command that compiles. -/
def compileForms : List (OptionForm Meaning) :=
  [⟨.output, ["-o", "--output"], true⟩, ⟨.environment, ["-e", "--env"], true⟩,
    ⟨.minify, ["--minify"], false⟩, ⟨.noMinify, ["--no-minify"], false⟩] ++ sharedForms

/-- The last of the options with one of the meanings. -/
def last? (meanings : List Meaning) (options : List (Given Meaning)) : Option (Given Meaning) :=
  options.reverse.find? fun given => meanings.contains given.meaning

/-- The value of the last option with a meaning. -/
def value? (meaning : Meaning) (options : List (Given Meaning)) : Option Text :=
  (last? [meaning] options).map (·.value)

/-- The path in the last option with a meaning. -/
def path? (meaning : Meaning) (options : List (Given Meaning)) : Option Path :=
  (value? meaning options).map Path.ofText

/-- The request of a command with its arguments. Help is given whatever the operands are. -/
def ofCommand (forms : List (OptionForm Meaning)) (arguments : List Text)
    (make : Path → List (Given Meaning) → Request) : Request :=
  match Arguments.read? forms true arguments with
  | none => .wrong
  | some ⟨options, operands⟩ =>
    if (last? [.help] options).isSome then .help
    else
      match operands with
      | [input] => make (Path.ofText input) options
      | _ => .wrong

/-- The request to compile a template. -/
def ofCompile (input : Path) (options : List (Given Meaning)) : Request :=
  .compile
    { input
      output? := path? .output options
      environment? := value? .environment options
      minify? := (last? [.minify, .noMinify] options).map (·.meaning = .minify)
      config? := path? .config options }

/-- The request to check a template. -/
def ofCheck (input : Path) (options : List (Given Meaning)) : Request :=
  .check ⟨input, path? .config options⟩

/-- The name of the command that compiles. -/
def compileName : Text := "compile".toList

/-- The name of the command that checks. -/
def checkName : Text := "check".toList

/-- The request of a command line. The version is told before the command's own arguments are read,
but the command must exist. -/
def ofArguments (arguments : List Text) : Request :=
  if arguments.isEmpty then .wrong
  else
    match Arguments.read? generalForms false arguments with
    | none => .wrong
    | some ⟨options, rest⟩ =>
      let asksVersion := (last? [.version] options).isSome
      if (last? [.help] options).isSome then .help
      else
        match rest with
        | [] => if asksVersion then .version else .nothing
        | name :: arguments =>
          if name ≠ compileName && name ≠ checkName then .wrong
          else if asksVersion then .version
          else if name = compileName then ofCommand compileForms arguments ofCompile
          else ofCommand sharedForms arguments ofCheck

end Request

end FlowTemplate.CommandLine

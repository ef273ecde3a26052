/-
Configurations: named environments, each with the options of its templates, and the name of the one
that is active unless another is asked for.
-/
import FlowTemplate.Pipeline
import FlowTemplate.Text.CodePoint

namespace FlowTemplate

/-- A configuration. No two of its environments have the same name. -/
structure Config where
  environment : WideText
  environments : List (WideText × Options)
  deriving DecidableEq, Repr

namespace Config

/-- The environment that is active where none is named, and that need not be declared. -/
def defaultEnvironment : WideText := .ofText "development".toList

/-- The configuration where there is none. -/
def default : Config := ⟨defaultEnvironment, []⟩

/-- An environment that is asked for and not declared, and the names of those that are. -/
structure UnknownEnvironment where
  name : WideText
  known : List WideText
  deriving DecidableEq, Repr

/-- The wording for an unknown environment, with the known names in order, or a word for none where
that leaves nothing to show. -/
def UnknownEnvironment.message (unknown : UnknownEnvironment) : WideText :=
  let known := List.intercalate (WideText.ofText ", ".toList) (unknown.known.mergeSort WideText.le)
  WideText.ofText "Unknown environment '".toList ++ unknown.name
    ++ WideText.ofText "' (defined: ".toList
    ++ (if known.isEmpty then WideText.ofText "none".toList else known)
    ++ WideText.ofText ")".toList

/-- The options of the environment asked for, or of the active one if none is named. The default
environment has the default options where it is not declared. -/
def active (config : Config) (asked? : Option Text) : Except UnknownEnvironment Options :=
  let name := match asked? with
    | some (c :: cs) => .ofText (c :: cs)
    | _ => config.environment
  match config.environments.lookup name with
  | some options => .ok options
  | none =>
    if name = defaultEnvironment then .ok Options.default
    else .error ⟨name, config.environments.map (·.1)⟩

end Config

end FlowTemplate

/-
The schema of configurations: which values are options of an environment and which are
configurations, with everything that is wrong about a value that is none. What the program does with
a configuration does not depend on it.
-/
import FlowTemplate.Config.Basic
import FlowTemplate.Config.Issue
import FlowTemplate.Config.Key

namespace FlowTemplate

namespace Config

/-- The truth value at the first of the keys that is there, or the default. -/
def boolField (location keys : List Text) (entries : List (Scalar × Value)) (default : Bool) :
    Checked Bool :=
  match keys.findSome? fun key => (Value.lookup? key entries).map (key, ·) with
  | none => pure default
  | some (key, value) =>
    match boolOf value with
    | .ok value => pure value
    | .error kind => Checked.flaw (location ++ [key]) kind default

/-- The options of an environment. Each field has a name in camel case, which goes first, and one
with low lines; other keys do not matter. -/
def optionsOf (location : List Text) (entries : List (Scalar × Value)) : Checked Options := do
  let field (names : List String) (default : Bool) :=
    boolField location (names.map String.toList) entries default
  let minify ← field ["minifyTemplate", "minify_template"] Options.default.minify
  let selectMarkers ← field ["selectMarkers", "select_markers"] Options.default.selectMarkers
  let interpolation ← field ["interpolation"] Options.default.interpolation
  let inputBindings ← field ["inputBindings", "input_bindings"] Options.default.inputBindings
  return ⟨minify, selectMarkers, interpolation, inputBindings⟩

/-- The name of the key that holds the environments. -/
def environmentsKey : Text := "environments".toList

/-- One environment: the issues of its key, then those of its options. -/
def entryOf (entry : Scalar × Value) : Checked (WideText × Options) := do
  let (key, value) := entry
  let location := [environmentsKey, keyText key]
  let name ← match textOf key with
    | .ok name => pure name
    | .error kind => Checked.flaw (location ++ ["[key]".toList]) kind []
  let options ← match value with
    | .mapping entries => optionsOf location entries
    | _ => Checked.flaw location .modelType Options.default
  return (name, options)

/-- The name of the key that holds the active environment. -/
def environmentKey : Text := "environment".toList

/-- An environment added to others: at the end, or in the place of the one with the same name. -/
def putEnvironment (name : WideText) (options : Options) :
    List (WideText × Options) → List (WideText × Options)
  | [] => [(name, options)]
  | (n, o) :: rest =>
    if n = name then (name, options) :: rest else (n, o) :: putEnvironment name options rest

/-- The configuration that a mapping spells. Of two keys that spell one name the last counts. -/
def ofEntries (entries : List (Scalar × Value)) : Except (List Issue) Config :=
  Checked.toExcept do
    let environment ← match Value.lookup? environmentKey entries with
      | none => pure defaultEnvironment
      | some (.scalar value) =>
        match textOf value with
        | .ok name => pure name
        | .error kind => Checked.flaw [environmentKey] kind defaultEnvironment
      | some _ => Checked.flaw [environmentKey] .stringType defaultEnvironment
    let environments ← match Value.lookup? environmentsKey entries with
      | none => pure []
      | some (.mapping entries) => entries.mapM entryOf
      | some _ => Checked.flaw [environmentsKey] .dictType []
    return ⟨environment, environments.foldl
      (fun all (name, options) => putEnvironment name options all) []⟩

end Config

end FlowTemplate

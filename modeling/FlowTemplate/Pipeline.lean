/-
The stages of a template: interpolation, control flow, loop markers, property bindings and
minification, in that order. Interpolation comes first, because the bodies of control flow must
not hold the braces of expressions.
-/
import FlowTemplate.Compiler
import FlowTemplate.Interpolation.Tag
import FlowTemplate.Minify.Space
import FlowTemplate.PropertyBinding
import FlowTemplate.SelectMarker

namespace FlowTemplate

/-- Which stages a template goes through. Control flow is always compiled. -/
structure Options where
  minify : Bool
  selectMarkers : Bool
  interpolation : Bool
  inputBindings : Bool
  deriving DecidableEq, Repr

namespace Options

/-- All stages but minification. -/
def default : Options := ⟨false, true, true, true⟩

/-- A stage, if it is asked for. -/
def stage (wanted : Bool) (compile : Text → Text) (template : Text) : Text :=
  if wanted then compile template else template

/-- Compiles a template through the stages asked for. -/
def compile (options : Options) (template : Text) : Except Fault Text := do
  let interpolated := stage options.interpolation Interpolation.compile template
  let compiled ← (Compiler.compile .default Container.defaultTag interpolated).result
  let marked := stage options.selectMarkers SelectMarker.compile compiled
  let bound := stage options.inputBindings PropertyBinding.compile marked
  return stage options.minify Minify.minify bound

end Options

end FlowTemplate

/-
The compiler of control flow: the pass over loops, then the pass over chains. Nesting beyond the
limit of either leaves the whole template as it is.
-/
import FlowTemplate.Pass

namespace FlowTemplate

/-- How deep texts may nest in each pass. -/
structure NestingLimits where
  loops : Nat
  chains : Nat
  deriving DecidableEq, Repr

/-- The limits in use. -/
def NestingLimits.default : NestingLimits := ⟨330, 247⟩

namespace Compiler

/-- Compiles every `@for` block. -/
def compileLoops (limits : NestingLimits) (tag text : Text) : Traced Text :=
  Pass.run .loops tag limits.loops text

/-- Compiles every chain of `@if` blocks. -/
def compileChains (limits : NestingLimits) (tag text : Text) : Traced Text :=
  Pass.run .chains tag limits.chains text

/-- Compiles the loops of a template and then its chains. A template nested too deep comes back
unchanged, which the log shows. -/
def compile (limits : NestingLimits) (tag text : Text) : Traced Text := do
  match ← (compileLoops limits tag text >>= compileChains limits tag).attempt with
  | .ok compiled => return compiled
  | .error .nestingTooDeep =>
    Traced.log .templateLeft
    return text
  | .error fault => Traced.fail fault

end Compiler

end FlowTemplate

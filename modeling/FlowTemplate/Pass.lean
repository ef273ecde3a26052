/-
Passes: one replaces every `@for` block of a template by its container, the other every chain of
`@if` blocks. A pass reads its text behind a cursor that only moves forward, so it never reads its
own output; what cannot be read stays as it is and is logged. Bodies are compiled by the same pass,
down to a limit on how deep blocks may nest.
-/
import FlowTemplate.Container

namespace FlowTemplate

/-- The two constructs that a pass can compile. -/
inductive Construct where
  | loops
  | chains
  deriving DecidableEq, Repr

namespace Construct

/-- The keyword that begins the construct. -/
def keyword : Construct → Text
  | loops => "for".toList
  | chains => "if".toList

/-- The markup for the construct that a block begins, and the offset just past it. The bodies are
compiled by `inner`. -/
def compileBlock (tag : Text) (inner : Text → Traced Text) (text : Text) (block : Block) :
    Construct → Traced (Text × Nat)
  | loops => do
    let loop ← Loop.ofBlock text block
    let content ← inner loop.content
    return (Container.ofLoop tag { loop with content }, block.stop)
  | chains => do
    let (chain, stop) ← Chain.ofBlock text block
    let compiled ← chain.mapM fun branch => do
      let content ← inner branch.content
      return { branch with content }
    return (Container.ofChain tag compiled, stop)

end Construct

namespace Pass

/-- A pass over `text` from the offset `cursor` on, behind the `output` written so far. Every step
moves the cursor, so there are no more steps than characters. -/
def runFrom (construct : Construct) (compileBlock : Text → Block → Traced (Text × Nat))
    (text : Text) : Nat → Nat → Text → Traced Text
  | 0, cursor, output => pure (output ++ text.drop cursor)
  | fuel + 1, cursor, output =>
    if text.length ≤ cursor then pure (output ++ text.drop cursor)
    else
      match locate text construct.keyword cursor with
      | .error (.unbalanced position) => do
        Traced.log (.passStopped construct.keyword (.unbalanced position))
        return output ++ text.drop cursor
      | .error (.malformedHeader position header) => do
        Traced.log (.keywordSkipped construct.keyword (.malformedHeader position header))
        let resume := position + construct.keyword.length + 1
        runFrom construct compileBlock text fuel resume (output ++ text.slice cursor resume)
      | .error fault => Traced.fail fault
      | .ok none => pure (output ++ text.drop cursor)
      | .ok (some block) => do
        match ← (compileBlock text block).attempt with
        | .error (.malformedHeader position header) =>
          Traced.log (.blockLeft construct.keyword (.malformedHeader position header))
          runFrom construct compileBlock text fuel block.stop
            (output ++ text.slice cursor block.stop)
        | .error fault => Traced.fail fault
        | .ok (markup, stop) =>
          runFrom construct compileBlock text fuel stop
            (output ++ text.slice cursor block.start ++ markup)

/-- A pass over a text in which no more than `limit` texts are nested, the text itself counted. -/
def run (construct : Construct) (tag : Text) : Nat → Text → Traced Text
  | 0, _ => Traced.fail .nestingTooDeep
  | limit + 1, text =>
    runFrom construct
      (fun whole block => construct.compileBlock tag (run construct tag limit) whole block)
      text text.length 0 []

end Pass

end FlowTemplate

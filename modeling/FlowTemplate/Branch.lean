/-
Chains of branches: `@if (condition) {content}`, then any number of `@else if (condition) {content}`
and at last perhaps `@else {content}`. A condition may end in an alias clause `; as name`.
-/
import FlowTemplate.Block
import FlowTemplate.Identifier
import FlowTemplate.Traced

namespace FlowTemplate

/-- A condition and the name that its value gets in the branch. -/
structure Condition where
  expression : Text
  alias? : Option Text
  deriving DecidableEq, Repr

namespace Condition

/-- The text up to the last semicolon and the text after it. -/
def cutLast? (text : Text) : Option (Text × Text) :=
  match Text.cut ';' text.reverse with
  | (after, some before) => some (before.reverse, after.reverse)
  | (_, none) => none

/-- The name in an alias clause `as name`, which may have blanks around it. -/
def aliasClause? (clause : Text) : Option Text := do
  let rest ← (Text.after? "as".toList clause.trim).bind Text.afterBlanks?
  if isIdentifier rest then some rest else none

/-- The condition in a header. It has an alias if what follows its last semicolon is an alias
clause and something stands before that semicolon. -/
def ofHeader (header : Text) : Condition :=
  let whole := header.trim
  match cutLast? whole with
  | none => ⟨whole, none⟩
  | some (expression, clause) =>
    match expression, aliasClause? clause with
    | _ :: _, some name => ⟨expression.trim, some name⟩
    | _, _ => ⟨whole, none⟩

end Condition

/-- One branch of a chain. A branch without a condition is an `@else`. -/
structure Branch where
  condition? : Option Text
  content : Text
  alias? : Option Text
  deriving DecidableEq, Repr

namespace Branch

/-- Whether the branch is an `@else`. -/
def isElse (branch : Branch) : Bool := branch.condition?.isNone

/-- The branch with a condition and a body. The content begins at the first character of the body
that is no blank. -/
def ofParts (text : Text) (header body : Span) : Branch :=
  let condition := Condition.ofHeader (header.innerText text)
  ⟨some condition.expression, (body.innerText text).trimStart, condition.alias?⟩

/-- The `@else` branch with a body. -/
def ofElse (text : Text) (body : Span) : Branch :=
  ⟨none, (body.innerText text).trimStart, none⟩

end Branch

namespace Chain

/-- What follows `@else if` and the blanks around it, if a parenthesis stands there. -/
def afterElseIf? (text : Text) : Option Text := do
  let rest ← (Text.after? "@else".toList text.trimStart).bind Text.afterBlanks?
  let rest := (← Text.after? "if".toList rest).trimStart
  if rest.head? = some '(' then some rest else none

/-- What follows `@else` and the blanks around it, if a brace stands there. -/
def afterElse? (text : Text) : Option Text := do
  let rest := (← Text.after? "@else".toList text.trimStart).trimStart
  if rest.head? = some '{' then some rest else none

/-- A group that does not close or is missing makes the `@else` after `index` a broken one. -/
def asContinuation {α : Type} (index : Nat) : Except Fault α → Except Fault α
  | .error (.unbalanced _) => .error (.brokenContinuation index)
  | .error (.malformedHeader _ _) => .error (.brokenContinuation index)
  | result => result

/-- The branch that continues a chain at `index` and the offset just past it, or none if the text
goes on otherwise. -/
def continuation (text : Text) (index : Nat) : Except Fault (Option (Branch × Nat)) :=
  let ahead := text.drop index
  match afterElseIf? ahead with
  | some rest =>
    asContinuation index <| (Block.groups text (text.length - rest.length)).map fun (header, body) =>
      some (Branch.ofParts text header body, body.stop)
  | none =>
    match afterElse? ahead with
    | some rest =>
      asContinuation index <| (expectGroup text (text.length - rest.length) '{').map fun body =>
        some (Branch.ofElse text body, body.stop)
    | none => .ok none

/-- The branches that continue a chain whose last branch so far is `last` and ends at `stop`, and
the offset just past them. -/
def continueFrom (text : Text) : Nat → Branch → Nat → Traced (List Branch × Nat)
  | 0, _, stop => pure ([], stop)
  | fuel + 1, last, stop =>
    if last.isElse then pure ([], stop)
    else
      match continuation text stop with
      | .ok none => pure ([], stop)
      | .ok (some (branch, next)) => do
        let (branches, finish) ← continueFrom text fuel branch next
        return (branch :: branches, finish)
      | .error (.brokenContinuation position) => do
        Traced.log (.chainEnded (.brokenContinuation position))
        return ([], stop)
      | .error fault => Traced.fail fault

/-- The branches of the chain that begins with a located `@if` block, and the offset just past the
last of them. The chain ends at the first text that does not continue it, and after an `@else`. -/
def ofBlock (text : Text) (block : Block) : Traced (List Branch × Nat) := do
  let first := Branch.ofParts text block.header block.body
  let (branches, stop) ← continueFrom text text.length first block.stop
  return (first :: branches, stop)

end Chain

end FlowTemplate

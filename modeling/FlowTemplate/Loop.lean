/-
Loops: `@for (item of items; track key) {content}`. The header is cut at its first semicolon; what
stands before it must name the loop variable and what it runs over.
-/
import FlowTemplate.Block
import FlowTemplate.Identifier
import FlowTemplate.Traced

namespace FlowTemplate

/-- A loop: `item` stands for each element of `iterable` in the content, and `track?` tells the
elements apart. -/
structure Loop where
  item : Text
  iterable : Text
  content : Text
  track? : Option Text
  deriving DecidableEq, Repr

namespace Loop

/-- The variable and the iterable of a loop clause `item of items`. -/
def clause? (clause : Text) : Option (Text × Text) := do
  let (item, rest) ← readIdentifier? clause
  let rest ← Text.after? "of".toList (← rest.afterBlanks?)
  let iterable ← rest.afterBlanks?
  if iterable.isEmpty then none else some (item, iterable)

/-- The expression of a track clause `track key`. -/
def trackClause? (clause : Text) : Option Text := do
  let rest ← Text.after? "track".toList clause
  let key ← rest.afterBlanks?
  if key.isEmpty then none else some key

/-- The expression in what follows the loop clause. Anything but a track clause is ignored, which
the log shows unless it is blank. -/
def track (rest : Text) : Traced (Option Text) :=
  let clause := rest.trim
  if clause.isEmpty then pure none
  else
    match trackClause? clause with
    | some key => pure (some key.trim)
    | none => do
      Traced.log (.trackIgnored clause)
      return none

/-- The loop that a located `@for` block spells. -/
def ofBlock (text : Text) (block : Block) : Traced Loop :=
  let header := (block.headerText text).trim
  let (first, second) := header.cut ';'
  match clause? first.trim with
  | none => Traced.fail (.malformedHeader block.start header)
  | some (item, iterable) => do
    let track? ← track (second.getD [])
    return ⟨item, iterable.trim, block.bodyText text, track?⟩

end Loop

end FlowTemplate

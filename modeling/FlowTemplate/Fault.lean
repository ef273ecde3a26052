/-
What can be wrong with a text that is read as a template. Each fault is a cause with the offset it
was found at; the wording is one function of the cause.
-/
import FlowTemplate.Text.Quoted

namespace FlowTemplate

/-- A cause for which a construct cannot be read or compiled. -/
inductive Fault where
  /-- The group opened at `position` does not close before the text ends. -/
  | unbalanced (position : Nat)
  /-- The block at `position` has no header and body of the expected shape. -/
  | malformedHeader (position : Nat) (header : Text)
  /-- The `@else` after the offset `position` cannot be read. -/
  | brokenContinuation (position : Nat)
  /-- There is no character at `index`. -/
  | pastEnd (index : Nat)
  /-- The character at `index` opens no group. -/
  | noOpener (index : Nat)
  /-- Blocks of one keyword are nested deeper than the limit. -/
  | nestingTooDeep
  deriving DecidableEq, Repr

namespace Fault

/-- The offset at which a fault of the markup was found. -/
def position? : Fault → Option Nat
  | unbalanced position => some position
  | malformedHeader position _ => some position
  | brokenContinuation position => some position
  | pastEnd _ | noOpener _ | nestingTooDeep => none

/-- The wording that ends every message about a place in the text. -/
def located (what : Text) (position : Nat) : Text :=
  what ++ " at offset ".toList ++ Text.ofNat position

/-- The wording of a fault. -/
def message : Fault → Text
  | unbalanced position => located "Unbalanced delimiter".toList position
  | malformedHeader position header =>
    located ("Malformed block header ".toList ++ header.quoted) position
  | brokenContinuation position => located "Broken @else continuation".toList position
  | pastEnd index => located "No character".toList index
  | noOpener index => located "No opening delimiter".toList index
  | nestingTooDeep => "Nesting too deep".toList

end Fault

end FlowTemplate

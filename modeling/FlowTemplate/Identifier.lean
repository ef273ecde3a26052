/-
Identifiers: the names that a loop variable or an alias may have.
-/
import FlowTemplate.Text.Basic

namespace FlowTemplate

/-- Whether an identifier may begin with this character. -/
def startsIdentifier (c : Char) : Bool := c.isAlpha || c = '_' || c = '$'

/-- Whether an identifier may go on with this character. -/
def continuesIdentifier (c : Char) : Bool := startsIdentifier c || c.isDigit

/-- Whether a text is an identifier as a whole. -/
def isIdentifier : Text → Bool
  | [] => false
  | c :: cs => startsIdentifier c && cs.all continuesIdentifier

/-- The longest identifier at the front of a text, and what follows it. -/
def readIdentifier? : Text → Option (Text × Text)
  | [] => none
  | c :: cs =>
    if startsIdentifier c then
      some (c :: cs.takeWhile continuesIdentifier, cs.dropWhile continuesIdentifier)
    else none

end FlowTemplate

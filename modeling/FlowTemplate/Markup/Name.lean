/-
Names in markup: the names of elements and attributes, and the attribute text of a tag.
-/
import FlowTemplate.Text.Blank

namespace FlowTemplate.Markup

/-- Whether a name may begin with this character. -/
def startsName (c : Char) : Bool := c.isAlpha

/-- Whether a name may go on with this character. -/
def continuesName (c : Char) : Bool := c.isAlphanum || c = '-'

/-- The longest name at the front of a text, and what follows it. -/
def readName? : Text → Option (Text × Text)
  | [] => none
  | c :: cs =>
    if startsName c then some (c :: cs.takeWhile continuesName, cs.dropWhile continuesName)
    else none

/-- The text up to the first `c`, and what follows that `c`. -/
def readUntil? (c : Char) (text : Text) : Option (Text × Text) :=
  match Text.cut c text with
  | (before, some after) => some (before, after)
  | (_, none) => none

/-- The text before the first occurrence of what `after?` reads, and what follows it. -/
def readUpTo? (after? : Text → Option Text) : Text → Option (Text × Text)
  | [] => (after? []).map ([], ·)
  | c :: cs =>
    match after? (c :: cs) with
    | some rest => some ([], rest)
    | none => (readUpTo? after? cs).map fun (before, rest) => (c :: before, rest)

end FlowTemplate.Markup

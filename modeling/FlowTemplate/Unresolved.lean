/-
Control flow that is left in a compiled template: the keywords that still stand in it, each with
its place and the rest of its line.
-/
import FlowTemplate.Block

namespace FlowTemplate

/-- A keyword left in a text, with its line and column counted from one and the text from there to
the end of the line, cut short. -/
structure Unresolved where
  keyword : Text
  line : Nat
  column : Nat
  snippet : Text
  deriving DecidableEq, Repr

namespace Unresolved

/-- The most characters that a snippet has. -/
def snippetLength : Nat := 40

/-- The keywords that are looked for. -/
def keywords : List Text := ["if".toList, "for".toList, "else".toList]

/-- A keyword at the front of a text. -/
def readKeyword : Recogniser Text := fun text =>
  keywords.findSome? fun keyword => (afterKeyword? keyword text).map (keyword, ·)

/-- The keyword that stands at an offset of a text. -/
def atOffset (text : Text) (offset : Nat) (keyword : Text) : Unresolved :=
  let before := text.take offset
  { keyword
    line := before.count '\n' + 1
    column := (before.reverse.takeWhile (· ≠ '\n')).length + 1
    snippet := ((text.drop offset).takeWhile (· ≠ '\n')).take snippetLength }

/-- Every keyword left in a text, in order. -/
def find (text : Text) : List Unresolved :=
  (text.occurrencesWithOffsets readKeyword).map fun (offset, keyword) =>
    atOffset text offset keyword

end Unresolved

end FlowTemplate

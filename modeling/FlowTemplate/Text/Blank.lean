/-
Blanks: the white space that the template grammar skips, trims and collapses. The set is wider than
ASCII: it holds the separators U+001C to U+001F, the next line character and every Unicode space.
-/
import FlowTemplate.Text.Basic

namespace FlowTemplate

/-- Whether a character is white space. The zero width characters are not. -/
def isBlank (c : Char) : Bool :=
  let n := c.toNat
  (0x09 ≤ n && n ≤ 0x0D) || (0x1C ≤ n && n ≤ 0x20) || n == 0x85 || n == 0xA0 || n == 0x1680 ||
    (0x2000 ≤ n && n ≤ 0x200A) || n == 0x2028 || n == 0x2029 || n == 0x202F || n == 0x205F ||
    n == 0x3000

namespace Text

/-- The text without the blanks at its front. -/
def trimStart (text : Text) : Text := text.dropWhile isBlank

/-- The text without the blanks at its end. -/
def trimEnd (text : Text) : Text := (text.reverse.dropWhile isBlank).reverse

/-- The text without the blanks at both ends. -/
def trim (text : Text) : Text := text.trimStart.trimEnd

/-- What follows at least one blank at the front, with all the blanks there skipped. -/
def afterBlanks? : Text → Option Text
  | [] => none
  | c :: cs => if isBlank c then some (trimStart cs) else none

/-- Every maximal run of blanks replaced by one space. -/
def collapse : Text → Text
  | [] => []
  | c :: cs =>
    if isBlank c then
      match cs with
      | [] => [' ']
      | d :: _ => if isBlank d then collapse cs else ' ' :: collapse cs
    else c :: collapse cs

end Text

end FlowTemplate

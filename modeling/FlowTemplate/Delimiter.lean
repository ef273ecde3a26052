/-
Groups in parentheses and in braces. A group ends where the delimiter that opened it is closed as
often as it was opened; the delimiters of the other kind do not count, so a stray parenthesis in a
body or a stray brace in a condition does no harm.
-/
import FlowTemplate.Fault
import FlowTemplate.Span
import FlowTemplate.Text.Blank

namespace FlowTemplate

/-- The two kinds of group. -/
inductive Delimiter where
  | paren
  | brace
  deriving DecidableEq, Repr

namespace Delimiter

/-- The character that opens a group. -/
def opener : Delimiter → Char
  | paren => '('
  | brace => '{'

/-- The character that closes a group. -/
def closer : Delimiter → Char
  | paren => ')'
  | brace => '}'

/-- The kind of group that a character opens. -/
def ofOpener? (c : Char) : Option Delimiter :=
  if c = '(' then some paren else if c = '{' then some brace else none

/-- How far on the group closes of which `depth` levels are open. -/
def closingOffset? (kind : Delimiter) : Nat → Text → Option Nat
  | _, [] => none
  | depth, c :: cs =>
    if c = kind.opener then (closingOffset? kind (depth + 1) cs).map (· + 1)
    else if c = kind.closer then
      if depth ≤ 1 then some 0 else (closingOffset? kind (depth - 1) cs).map (· + 1)
    else (closingOffset? kind depth cs).map (· + 1)

end Delimiter

/-- The offset of the delimiter that closes the group opened at `index`. -/
def findClosing (text : Text) (index : Nat) : Except Fault Nat :=
  match text.drop index with
  | [] => .error (.pastEnd index)
  | c :: cs =>
    match Delimiter.ofOpener? c with
    | none => .error (.noOpener index)
    | some kind =>
      match kind.closingOffset? 1 cs with
      | none => .error (.unbalanced index)
      | some offset => .ok (index + 1 + offset)

/-- The offset of the first character from `index` on that is no blank. -/
def skipBlanks (text : Text) (index : Nat) : Nat :=
  index + ((text.drop index).takeWhile isBlank).length

/-- The group that `opener` opens at `index`, after blanks. The span has both delimiters in it. -/
def expectGroup (text : Text) (index : Nat) (opener : Char) : Except Fault Span :=
  let start := skipBlanks text index
  if text[start]? = some opener then
    (findClosing text start).map fun closing => ⟨start, closing + 1⟩
  else .error (.malformedHeader start [])

end FlowTemplate

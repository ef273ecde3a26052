/-
Tokens of a YAML stream. Indentation has become explicit here: the starts and ends of block
collections are tokens of their own.
-/
import FlowTemplate.Text.CodePoint
import FlowTemplate.Yaml.Fault

namespace FlowTemplate.Yaml

/-- A tag as it is written: `handle?` is the part that a directive resolves. -/
structure TagName where
  handle? : Option Text
  suffix : Text
  deriving DecidableEq, Repr

/-- A token of a YAML stream. -/
inductive Token where
  | versionDirective (major : Nat)
  | tagDirective (handle leading : Text)
  | otherDirective
  | documentStart
  | documentEnd
  | blockSequenceStart
  | blockMappingStart
  | blockEnd
  | flowSequenceStart
  | flowMappingStart
  | flowSequenceEnd
  | flowMappingEnd
  | blockEntry
  | flowEntry
  | key
  | value
  | alias (name : Text)
  | anchor (name : Text)
  | tag (name : TagName)
  | scalar (text : WideText) (plain : Bool)
  | streamEnd
  deriving DecidableEq, Repr

/-- Whether a character ends a line. -/
def isBreak (c : Char) : Bool := c = '\n' || c = '\u0085' || c = '\u2028' || c = '\u2029'

/-- Whether nothing follows on the line: the text ends or breaks here. -/
def atBreak : Option Char → Bool
  | none => true
  | some c => isBreak c

/-- Whether a word ends here: at a space, a break or the end of the text. -/
def atSpace (c? : Option Char) : Bool := atBreak c? || c? = some ' '

/-- Whether a token ends here: at a space, a tab, a break or the end of the text. -/
def atBlank (c? : Option Char) : Bool := atSpace c? || c? = some '\t'

/-- Whether a stream may hold the character. -/
def isStreamChar (c : Char) : Bool :=
  let n := c.toNat
  n == 0x09 || n == 0x0A || n == 0x0D || (0x20 ≤ n && n ≤ 0x7E) || n == 0x85
    || (0xA0 ≤ n && n ≤ 0xD7FF) || (0xE000 ≤ n && n ≤ 0xFFFD) || 0x10000 ≤ n

/-- Whether a name of an anchor, handle or directive may hold the character. -/
def isNameChar (c : Char) : Bool := c.isAlphanum || c = '-' || c = '_'

/-- Whether the name of a tag may hold the character, the escaping percent sign included. -/
def isUriChar (c : Char) : Bool := c.isAlphanum || "-;/?:@&=+$,_.!~*'()[]%".toList.contains c

end FlowTemplate.Yaml

/-
Keys as the location of an issue shows them. Only texts and small integers are shown as they are;
other scalars are shown in the notation of values, so that no two kinds look alike.
-/
import FlowTemplate.Value

namespace FlowTemplate.Config

/-- One byte inside quotes of the kind `quote`. -/
def quotedByte (quote : Char) (byte : UInt8) : Text :=
  if byte < 0x7F then Text.quotedChar quote (Char.ofNat byte.toNat)
  else '\\' :: 'x' :: Text.hex 2 byte.toNat

/-- Bytes between quotes behind the letter b. -/
def quotedBytes (bytes : List UInt8) : Text :=
  let quote := Text.quoteFor (bytes.map fun byte => Char.ofNat byte.toNat)
  'b' :: quote :: bytes.flatMap (quotedByte quote) ++ [quote]

/-- The most digits that an integer is shown with. -/
def shownDigits : Nat := 4300

/-- An integer in decimal, or a word for one that is too long. -/
def integerText (n : Int) : Text :=
  if shownDigits < (Text.ofNat n.natAbs).length then "<unprintable int object>".toList
  else Text.ofInt n

/-- How a key is shown: a truth value as the integer it is equal to, and a text as far as it can be
read. -/
def keyText : Scalar → Text
  | .null => "None".toList
  | .bool value => integerText (Scalar.ofBool value)
  | .integer value => integerText value
  | .real value => Text.Shortest.ofFloat value
  | .nan _ => "nan".toList
  | .text value => value.readable
  | .bytes value => quotedBytes value
  | .date year month day => DateText.ofDay year month day
  | .moment moment => DateText.ofMoment moment

end FlowTemplate.Config

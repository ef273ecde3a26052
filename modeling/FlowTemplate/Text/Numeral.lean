/-
Numerals: how a text spells an integer or a real number. Blanks around a numeral do not count, and
every decimal digit of any script stands for its value.
-/
import FlowTemplate.Text.Blank

namespace FlowTemplate.Text.Numeral

/-- The zeros of the decimal digits. Those from one to nine follow each of them in order. -/
def zeros : List Nat := [
  0x30, 0x660, 0x6F0, 0x7C0, 0x966, 0x9E6, 0xA66, 0xAE6, 0xB66, 0xBE6, 0xC66, 0xCE6, 0xD66, 0xDE6,
  0xE50, 0xED0, 0xF20, 0x1040, 0x1090, 0x17E0, 0x1810, 0x1946, 0x19D0, 0x1A80, 0x1A90, 0x1B50,
  0x1BB0, 0x1C40, 0x1C50, 0xA620, 0xA8D0, 0xA900, 0xA9D0, 0xA9F0, 0xAA50, 0xABF0, 0xFF10, 0x104A0,
  0x10D30, 0x11066, 0x110F0, 0x11136, 0x111D0, 0x112F0, 0x11450, 0x114D0, 0x11650, 0x116C0, 0x11730,
  0x118E0, 0x11950, 0x11C50, 0x11D50, 0x11DA0, 0x16A60, 0x16AC0, 0x16B50, 0x1D7CE, 0x1D7D8, 0x1D7E2,
  0x1D7EC, 0x1D7F6, 0x1E140, 0x1E2F0, 0x1E950, 0x1FBF0]

/-- The ASCII digit with the value of a decimal digit. -/
def asciiDigit? (c : Char) : Option Char :=
  (zeros.find? fun first => first ≤ c.toNat && c.toNat ≤ first + 9).map fun first =>
    Char.ofNat ('0'.toNat + (c.toNat - first))

/-- The ASCII character that a numeral is read with in the place of a character. One that has no
meaning in any numeral becomes a question mark, which has none either. -/
def ascii (c : Char) : Char :=
  if c.toNat < 0x7F then c
  else if isBlank c then ' '
  else (asciiDigit? c).getD '?'

/-- Whether an ASCII character may stand around a numeral. -/
def isSpace (c : Char) : Bool := c = ' ' || ('\t' ≤ c && c ≤ '\r')

/-- The ASCII characters of a numeral without the blanks around it. -/
def core (text : Text) : Text :=
  ((((text.map ascii).dropWhile isSpace).reverse).dropWhile isSpace).reverse

/-- What follows the sign of a number, which it need not have. -/
def unsigned (text : Text) : Text :=
  match text with
  | '+' :: rest => rest
  | '-' :: rest => rest
  | _ => text

/-- Whether a text begins with a minus sign. -/
def isNegative (text : Text) : Bool := text.head? = some '-'

/-! ## Integers -/

/-- The value of a digit or a letter as a digit. -/
def digitValue (c : Char) : Nat :=
  if c.isDigit then c.toNat - '0'.toNat
  else if c.isAlpha then c.toLower.toNat - 'a'.toNat + 10
  else 99

/-- The number that digits in a base spell, of which there is at least one. -/
def ofDigits? (base : Nat) (digits : Text) : Option Nat :=
  if digits.isEmpty || digits.any fun c => base ≤ digitValue c then none
  else some (digits.foldl (fun n c => n * base + digitValue c) 0)

/-- The digits behind the mark of a base, which need not be there: a zero and the base's letter. -/
def behindMark (base : Nat) (digits : Text) : Text :=
  match digits with
  | '0' :: letter :: rest =>
    if [(2, 'b'), (8, 'o'), (16, 'x')].contains (base, letter.toLower) then rest else digits
  | _ => digits

/-- The integer that a numeral in a base spells. -/
def integer? (base : Nat) (text : Text) : Option Int :=
  let numeral := core text
  (ofDigits? base (behindMark base (unsigned numeral))).map fun (n : Nat) =>
    if isNegative numeral then -(n : Int) else n

/-! ## Real numbers -/

/-- The real number nearest to `digits` times a power of ten. Powers far from all real numbers are
not computed. -/
def scaled (digits : Nat) (power : Int) : Float :=
  let place := power + ((Text.ofNat digits).length : Int)
  if digits = 0 || place < -400 then 0.0
  else if 400 < place then 1.0 / 0.0
  else Float.ofScientific digits (power < 0) power.natAbs

/-- The power of ten in what follows the digits of a real number: none, or the letter e and an
integer. -/
def power? : Text → Option Int
  | [] => some 0
  | e :: rest =>
    if e = 'e' || e = 'E' then
      (ofDigits? 10 (unsigned rest)).map fun (n : Nat) => if isNegative rest then -(n : Int) else n
    else none

/-- The real number nearest to a decimal without sign, with or without a point and a power of ten. -/
def decimal? (text : Text) : Option Float := do
  let whole := text.takeWhile Char.isDigit
  let rest := text.dropWhile Char.isDigit
  let (part, rest) := match rest with
    | '.' :: rest => (rest.takeWhile Char.isDigit, rest.dropWhile Char.isDigit)
    | _ => ([], rest)
  let power ← power? rest
  let digits ← ofDigits? 10 (whole ++ part)
  some (scaled digits (power - (part.length : Int)))

/-- The real number that a numeral spells, the infinite ones and what is no number among them. -/
def real? (text : Text) : Option Float :=
  let numeral := core text
  let size := unsigned numeral
  let word := size.map Char.toLower
  let value? :=
    if word = "inf".toList || word = "infinity".toList then some (1.0 / 0.0)
    else if word = "nan".toList then some (0.0 / 0.0)
    else decimal? size
  value?.map fun value => if isNegative numeral then -value else value

end FlowTemplate.Text.Numeral

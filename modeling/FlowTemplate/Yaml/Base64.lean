/-
Bytes written in base 64. Characters outside the alphabet do not count, and the text ends where
padding completes a group of four.
-/
import FlowTemplate.Text.Basic

namespace FlowTemplate.Yaml.Base64

/-- The six bits that a character of the alphabet stands for. -/
def digit? (c : Char) : Option Nat :=
  if 'A' ≤ c && c ≤ 'Z' then some (c.toNat - 'A'.toNat)
  else if 'a' ≤ c && c ≤ 'z' then some (c.toNat - 'a'.toNat + 26)
  else if '0' ≤ c && c ≤ '9' then some (c.toNat - '0'.toNat + 52)
  else if c = '+' then some 62
  else if c = '/' then some 63
  else none

/-- The bytes that a text spells behind `count` characters of a group, which left over some bits in
`left`, and `pads` padding signs right before. A text that ends inside a group spells none. -/
def decodeFrom (count left pads : Nat) : Text → Option (List UInt8)
  | [] => if count = 0 then some [] else none
  | c :: cs =>
    if c = '=' then
      if 2 ≤ count && 4 ≤ count + pads + 1 then some []
      else decodeFrom count left (if 2 ≤ count then pads + 1 else pads) cs
    else
      match digit? c with
      | none => decodeFrom count left pads cs
      | some bits =>
        match count with
        | 0 => decodeFrom 1 bits 0 cs
        | 1 => (decodeFrom 2 (bits % 16) 0 cs).map (UInt8.ofNat (left * 4 + bits / 16) :: ·)
        | 2 => (decodeFrom 3 (bits % 4) 0 cs).map (UInt8.ofNat (left * 16 + bits / 4) :: ·)
        | _ => (decodeFrom 0 0 0 cs).map (UInt8.ofNat (left * 64 + bits) :: ·)

/-- The bytes that a text spells. It must be ASCII. -/
def decode (text : Text) : Option (List UInt8) :=
  if text.all fun c => c.toNat < 0x80 then decodeFrom 0 0 0 text else none

end FlowTemplate.Yaml.Base64

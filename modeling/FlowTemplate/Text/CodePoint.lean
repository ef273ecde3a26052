/-
Texts in which surrogates may stand. A surrogate is a code point that is no character; an escape in
a quoted text can name one all the same.
-/
import FlowTemplate.Text.Quoted

namespace FlowTemplate

/-- A code point: a character, or a surrogate by its distance from the first one. -/
inductive CodePoint where
  | char (c : Char)
  | surrogate (index : Fin 0x800)
  deriving DecidableEq, Repr

namespace CodePoint

/-- The first surrogate. -/
def firstSurrogate : Nat := 0xD800

/-- The code point with a number. -/
def ofNat (n : Nat) : CodePoint :=
  if h : firstSurrogate ≤ n ∧ n - firstSurrogate < 0x800 then .surrogate ⟨n - firstSurrogate, h.2⟩
  else .char (Char.ofNat n)

/-- The number of a code point. -/
def toNat : CodePoint → Nat
  | char c => c.toNat
  | surrogate index => firstSurrogate + index

/-- The character that a code point is, unless it is a surrogate. -/
def char? : CodePoint → Option Char
  | char c => some c
  | surrogate _ => none

/-- A character as it is, and a surrogate by its number. -/
def escaped : CodePoint → Text
  | char c => [c]
  | point => '\\' :: 'u' :: Text.hex 4 point.toNat

/-- A character as it is, and the three bytes that would spell a surrogate as three marks of what
cannot be read. -/
def readable : CodePoint → Text
  | char c => [c]
  | surrogate _ => List.replicate 3 '\ufffd'

end CodePoint

/-- A text in which surrogates may stand. -/
abbrev WideText := List CodePoint

namespace WideText

/-- A text without surrogates. -/
def ofText (text : Text) : WideText := text.map .char

/-- The text, if there are no surrogates in it. -/
def toText? (wide : WideText) : Option Text := wide.mapM CodePoint.char?

/-- The text with its surrogates by their numbers. -/
def escaped (wide : WideText) : Text := wide.flatMap CodePoint.escaped

/-- The text with its surrogates marked as what cannot be read. -/
def readable (wide : WideText) : Text := wide.flatMap CodePoint.readable

/-- Whether a text comes before another or is the same, in the order of code points. -/
def le : WideText → WideText → Bool
  | [], _ => true
  | _ :: _, [] => false
  | c :: cs, d :: ds => c.toNat < d.toNat || (c = d && le cs ds)

end WideText

end FlowTemplate

/-
Text as the list of its code points, with the few operations on it that the rest of the library
shares: parts by offset, what follows a literal, and the cut at the first occurrence of a character.
-/
namespace FlowTemplate

/-- Text is the list of its code points, so that every offset, line and column counts code points. -/
abbrev Text := List Char

namespace Text

/-- What holds of every character of a text is decided along the text, also where all characters
could be gone through. -/
instance (priority := 2000) decidableForallMem {text : Text} {p : Char → Prop} [DecidablePred p] :
    Decidable (∀ c ∈ text, p c) := List.decidableBAll p text

/-- The text of a string. -/
def ofString (s : String) : Text := s.toList

/-- The part of `text` from offset `start` up to offset `stop`. An offset past the end stands for
the end, and a `start` at or past `stop` gives the empty text. -/
def slice (text : Text) (start stop : Nat) : Text := (text.take stop).drop start

/-- What follows `literal` at the front of `text`, if `text` begins with it. -/
def after? (literal text : Text) : Option Text := literal.isPrefixOf? text

/-- The text before the first `c`, and what follows that `c` when there is one. -/
def cut (c : Char) : Text → Text × Option Text
  | [] => ([], none)
  | x :: xs => if x = c then ([], some xs) else ((x :: (cut c xs).1), (cut c xs).2)

/-- The least offset at which the text from there on satisfies `p`. -/
def offsetOf? (p : Text → Bool) : Text → Option Nat
  | [] => none
  | c :: cs => if p (c :: cs) then some 0 else (offsetOf? p cs).map (· + 1)

/-- The texts one after another with `separator` between neighbours. -/
def joinWith (separator : Text) (parts : List Text) : Text := separator.intercalate parts

/-- A natural number in decimal. -/
def ofNat (n : Nat) : Text := Nat.toDigits 10 n

/-- An integer in decimal. -/
def ofInt (n : Int) : Text :=
  if n < 0 then '-' :: ofNat n.natAbs else ofNat n.natAbs

/-- The text without one line feed at its end. -/
def dropLineEnd (text : Text) : Text :=
  if text.getLast? = some '\n' then text.dropLast else text

/-- The parts of a text between the occurrences of a character, of which there is at least one. -/
def splitOn (separator : Char) : Text → List Text
  | [] => [[]]
  | c :: cs =>
    if c = separator then [] :: splitOn separator cs
    else
      match splitOn separator cs with
      | [] => [[c]]
      | part :: parts => (c :: part) :: parts

end Text

end FlowTemplate

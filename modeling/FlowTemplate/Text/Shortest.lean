/-
The shortest decimal of a real number: the fewest digits that read back as the same number. Of two
decimals with so few digits the nearer one is taken.
-/
import FlowTemplate.Text.Basic

namespace FlowTemplate.Text.Shortest

/-- A fraction that is not negative. -/
structure Fraction where
  numerator : Nat
  denominator : Nat
  deriving Repr

/-- The bit before the mantissa of a number that is not very small. -/
def hiddenBit : Nat := 0x10000000000000

/-- The size of a finite number, exactly. -/
def Fraction.ofFloat (x : Float) : Fraction :=
  let bits := x.toBits.toNat
  let field := bits / hiddenBit % 2048
  let mantissa := bits % hiddenBit + (if field = 0 then 0 else hiddenBit)
  let power : Int := (max field 1 : Nat) - 1075
  if 0 ≤ power then ⟨mantissa * Nat.pow 2 power.natAbs, 1⟩ else ⟨mantissa, Nat.pow 2 power.natAbs⟩

/-- A fraction times a power of ten. -/
def Fraction.timesTen (x : Fraction) (power : Int) : Fraction :=
  if 0 ≤ power then ⟨x.numerator * Nat.pow 10 power.natAbs, x.denominator⟩
  else ⟨x.numerator, x.denominator * Nat.pow 10 power.natAbs⟩

/-- The integer that a number is equal to, if it is one. -/
def integer? (x : Float) : Option Int :=
  let size := Fraction.ofFloat x
  if x.isNaN || x.isInf || size.numerator % size.denominator ≠ 0 then none
  else
    let n : Int := (size.numerator / size.denominator : Nat)
    some (if x < 0 then -n else n)

/-- The place of the first digit, found by trying places from `place` downwards. -/
def firstPlaceFrom (x : Fraction) : Nat → Int → Int
  | 0, place => place
  | fuel + 1, place =>
    let scaled := x.timesTen (-place)
    if scaled.denominator ≤ scaled.numerator then place else firstPlaceFrom x fuel (place - 1)

/-- The place of the first digit of a number that is not zero: the power of ten it stands for. -/
def firstPlace (x : Fraction) : Int := firstPlaceFrom x 640 309

/-- The number nearest to `digits` times a power of ten. -/
def value (digits : Nat) (place : Int) : Float := Float.ofScientific digits (place < 0) place.natAbs

/-- The decimal with its last digit at a place that reads back as `x`, if there is one. -/
def atPlace? (x : Float) (exact : Fraction) (place : Int) : Option Nat :=
  let scaled := exact.timesTen (-place)
  let below := scaled.numerator / scaled.denominator
  let excess := scaled.numerator % scaled.denominator
  let nearFirst :=
    if 2 * excess < scaled.denominator || (2 * excess = scaled.denominator && below % 2 = 0) then
      [below, below + 1]
    else [below + 1, below]
  nearFirst.find? fun digits => value digits place == x

/-- The digits of the shortest decimal of a number above zero, and the place of the last of them.
No number needs more than seventeen digits. -/
def digits (x : Float) : Nat × Int :=
  let exact := Fraction.ofFloat x
  let first := firstPlace exact
  let places := (List.range 17).map fun (n : Nat) => first - (n : Int)
  ((places.findSome? fun place => (atPlace? x exact place).map (·, place))).getD (0, 0)

/-- Digits with a point behind the first `whole` of them, and zeros where digits are missing. -/
def withPoint (digits : Text) (whole : Int) : Text :=
  if whole ≤ 0 then '0' :: '.' :: (List.replicate whole.natAbs '0' ++ digits)
  else
    let whole := whole.natAbs
    let part := digits.drop whole
    digits.take whole ++ List.replicate (whole - digits.length) '0' ++ ['.']
      ++ (if part.isEmpty then ['0'] else part)

/-- Digits with a point behind the first, and the power of ten behind the letter e in at least two
digits. -/
def withExponent (digits : Text) (power : Int) : Text :=
  let size := Text.ofNat power.natAbs
  digits.take 1 ++ (if digits.length ≤ 1 then [] else '.' :: digits.drop 1) ++ ['e']
    ++ [if power < 0 then '-' else '+'] ++ (if size.length < 2 then '0' :: size else size)

/-- The text of a number above zero. The point stands among the digits from 0.0001 up to, but not
including, 10000000000000000. -/
def ofPositive (x : Float) : Text :=
  let (digits, place) := digits x
  let all := Text.ofNat digits
  let kept := (all.reverse.dropWhile (· = '0')).reverse
  let power := place + (all.length : Int) - 1
  if -4 ≤ power && power < 16 then withPoint kept (power + 1) else withExponent kept power

/-- The text of a number. -/
def ofFloat (x : Float) : Text :=
  if x.isNaN then "nan".toList
  else
    let sign := if x.toBits ≥ 0x8000000000000000 then ['-'] else []
    let size := x.abs
    sign ++ (if size.isInf then "inf".toList else if size == 0 then "0.0".toList else ofPositive size)

end FlowTemplate.Text.Shortest

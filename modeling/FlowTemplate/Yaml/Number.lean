/-
Numbers in YAML: integers in four bases and in base sixty, and real numbers. Low lines between the
digits do not count.
-/
import FlowTemplate.Text.Case
import FlowTemplate.Text.Numeral
import FlowTemplate.Yaml.Fault

namespace FlowTemplate.Yaml

namespace Number

open Text.Numeral

/-! ## Shapes of plain scalars -/

/-- Whether a character is a decimal digit or a low line. -/
def isLoose (c : Char) : Bool := c.isDigit || c = '_'

/-- Whether a part behind a colon is a number below sixty. -/
def isSixtieth : Text → Bool
  | [d] => d.isDigit
  | [t, d] => '0' ≤ t && t ≤ '5' && d.isDigit
  | _ => false

/-- Whether a text is the first part of a number in base sixty and its further ones follow. -/
def isBaseSixty (startsLead : Char → Bool) (parts : List Text) : Bool :=
  match parts with
  | (c :: cs) :: rest =>
    startsLead c && cs.all isLoose && !rest.isEmpty && rest.all isSixtieth
  | _ => false

/-- Whether a plain scalar is an integer. -/
def isInteger (text : Text) : Bool :=
  match unsigned text with
  | ['0'] => true
  | '0' :: 'b' :: digits => !digits.isEmpty && digits.all fun c => c = '0' || c = '1' || c = '_'
  | '0' :: 'x' :: digits =>
    !digits.isEmpty && digits.all fun c => c = '_' || digitValue c < 16
  | '0' :: digits => !digits.isEmpty && digits.all fun c => c = '_' || digitValue c < 8
  | c :: cs =>
    c.isDigit && (cs.all isLoose || isBaseSixty (fun d => '1' ≤ d && d ≤ '9') (Text.splitOn ':' (c :: cs)))
  | [] => false

/-- Whether a text is empty or the exponent of a real number, which has a sign. -/
def isExponent : Text → Bool
  | [] => true
  | [_] | [_, _] => false
  | e :: sign :: digits =>
    (e = 'e' || e = 'E') && (sign = '+' || sign = '-') && digits.all Char.isDigit

/-- Whether a text has the shape of a point, digits and an exponent. -/
def isFraction (text : Text) : Bool :=
  match text with
  | '.' :: rest => isExponent (rest.dropWhile isLoose)
  | _ => false

/-- Whether a text is one of the words. -/
def isOneOf (words : List String) (text : Text) : Bool := words.any fun word => text = word.toList

/-- Whether a plain scalar is a real number. -/
def isReal (text : Text) : Bool :=
  let digits := unsigned text
  match digits with
  | [] => false
  | '.' :: rest =>
    isOneOf [".inf", ".Inf", ".INF"] digits || isOneOf [".nan", ".NaN", ".NAN"] text
      || (text = digits && rest.head?.any Char.isDigit && isFraction digits)
  | c :: cs =>
    c.isDigit && (isFraction (cs.dropWhile isLoose)
      || (match Text.cut '.' digits with
        | (whole, some part) => part.all isLoose && isBaseSixty Char.isDigit (Text.splitOn ':' whole)
        | (_, none) => false))

/-! ## Values -/

/-- The integer that a text in a base spells. -/
def readInteger (base : Nat) (text : Text) : Except ScalarFault Int :=
  match integer? base text with
  | none => .error (.noInteger base text)
  | some n =>
    let count := (unsigned (core text)).length
    if base = 10 && ScalarFault.digitLimit < count then .error (.tooManyDigits count) else .ok n

/-- The number that parts in base sixty spell, the most significant first. -/
def ofSixtieths (parts : List Int) : Int := parts.foldl (fun n part => n * 60 + part) 0

/-- The size of the integer that a scalar spells, given without its sign. Its first character tells
the base. -/
def integerSize (digits : Text) : Except ScalarFault Int :=
  match digits with
  | [] => .error .emptyNumber
  | ['0'] => .ok 0
  | '0' :: 'b' :: digits => readInteger 2 digits
  | '0' :: 'x' :: digits => readInteger 16 digits
  | '0' :: _ => readInteger 8 digits
  | _ =>
    if digits.contains ':' then ((Text.splitOn ':' digits).mapM (readInteger 10)).map ofSixtieths
    else readInteger 10 digits

/-- The integer that a scalar spells. -/
def integer (text : Text) : Except ScalarFault Int :=
  let text := text.filter (· ≠ '_')
  (integerSize (unsigned text)).map fun size => if isNegative text then -size else size

/-- The real number that a text spells. -/
def readReal (text : Text) : Except ScalarFault Float :=
  match real? text with
  | some value => .ok value
  | none => .error (.noReal text)

/-- How many parts in base sixty a real number can have. -/
def partLimit : Nat := 174

/-- The real number that parts in base sixty spell, the most significant first. They are weighed and
added one by one from the least significant. -/
def ofRealSixtieths (parts : List Float) : Except ScalarFault Float :=
  if partLimit < parts.length then .error .tooManyParts
  else
    .ok ((parts.reverse.foldl (fun (sum, weight) part =>
      (sum + part * Float.ofScientific weight false 0, weight * 60)) ((0.0 : Float), (1 : Nat))).1)

/-- The size of the real number that a scalar spells, given without its sign. -/
def realSize (digits : Text) : Except ScalarFault Float :=
  if digits = ".inf".toList then .ok (1.0 / 0.0)
  else if digits.contains ':' then (Text.splitOn ':' digits).mapM readReal >>= ofRealSixtieths
  else readReal digits

/-- A real number as a scalar spells it. -/
inductive Real where
  | number (value : Float)
  /-- The sign of what is no number. -/
  | nan
  deriving Repr

/-- The real number that a scalar spells. -/
def real (text : Text) : Except ScalarFault Real :=
  let text := Text.lower (text.filter (· ≠ '_'))
  let digits := unsigned text
  if text.isEmpty then .error .emptyNumber
  else if digits = ".nan".toList then .ok .nan
  else (realSize digits).map fun size => .number (if isNegative text then -size else size)

end Number

end FlowTemplate.Yaml

/-
Why a text is not read as a value. A text that is no YAML is told apart from a scalar without a
value, for which there are many causes; the wording is one function of the cause.
-/
import FlowTemplate.Moment
import FlowTemplate.Text.Quoted

namespace FlowTemplate.Yaml

/-- Why a scalar has no value. -/
inductive ScalarFault where
  /-- The text spells no integer in the base. -/
  | noInteger (base : Nat) (text : Text)
  /-- The text has more digits than are read. -/
  | tooManyDigits (count : Nat)
  | noReal (text : Text)
  /-- A number in base sixty has more parts than a real number can weigh. -/
  | tooManyParts
  /-- The text ends where a number must go on. -/
  | emptyNumber
  /-- The word, in small letters, is that of no truth value. -/
  | noTruth (word : Text)
  | noDate
  /-- A mapping, with whatever value, stands for no date. -/
  | dateOfMapping
  | noYear (year : Nat)
  | noMonth
  | noDay
  | noHour
  | noMinute
  | noSecond
  /-- The offset of the time zone, in minutes, is a day or more. -/
  | noZone (offset : Int)
  /-- An escape names a code point past the last one. -/
  | noCodePoint (number : Nat)
  /-- Collections are nested too deep, or values stand for each other without end. -/
  | tooDeep
  deriving DecidableEq, Repr

/-- Why a text is not read as a value. -/
inductive YamlFault where
  /-- The text is not a single YAML document with values of known kinds. -/
  | malformed
  /-- A scalar has no value. -/
  | scalar (fault : ScalarFault)
  deriving DecidableEq, Repr

namespace ScalarFault

/-- How much of the quoted text a message about an integer shows. -/
def shownLength : Nat := 200

/-- The most digits that an integer in base ten may have. -/
def digitLimit : Nat := 4300

/-- The first number that is too large even for the check of a code point. -/
def wordLimit : Nat := 0x80000000

/-- The wording of a fault. -/
def message : ScalarFault → Text
  | noInteger base text =>
    "invalid literal for int() with base ".toList ++ Text.ofNat base ++ ": ".toList
      ++ text.quoted.take shownLength
  | tooManyDigits count =>
    "Exceeds the limit (".toList ++ Text.ofNat digitLimit
      ++ " digits) for integer string conversion: value has ".toList ++ Text.ofNat count
      ++ " digits; use sys.set_int_max_str_digits() to increase the limit".toList
  | noReal text => "could not convert string to float: ".toList ++ text.quoted
  | tooManyParts => "int too large to convert to float".toList
  | emptyNumber => "string index out of range".toList
  | noTruth word => word.quoted
  | noDate => "'NoneType' object has no attribute 'groupdict'".toList
  | dateOfMapping => "expected string or bytes-like object, got 'list'".toList
  | noYear year => "year ".toList ++ Text.ofNat year ++ " is out of range".toList
  | noMonth => "month must be in 1..12".toList
  | noDay => "day is out of range for month".toList
  | noHour => "hour must be in 0..23".toList
  | noMinute => "minute must be in 0..59".toList
  | noSecond => "second must be in 0..59".toList
  | noZone offset =>
    "offset must be a timedelta strictly between -timedelta(hours=24) and ".toList
      ++ "timedelta(hours=24), not ".toList ++ DateText.ofMinutes offset ++ ['.']
  | noCodePoint number =>
    if number < wordLimit then "chr() arg not in range(0x110000)".toList
    else "Python int too large to convert to C int".toList
  | tooDeep => "maximum recursion depth exceeded".toList

end ScalarFault

end FlowTemplate.Yaml

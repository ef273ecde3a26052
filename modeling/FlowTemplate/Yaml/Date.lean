/-
Dates and times in YAML: a calendar day, or a day and a time with or without a time zone.
-/
import FlowTemplate.Text.Numeral
import FlowTemplate.Value
import FlowTemplate.Yaml.Fault

namespace FlowTemplate.Yaml.Date

/-- The number that between `least` and `most` digits at the front of a text spell, as many as there
are, and what follows them. -/
def readDigits? (least most : Nat) (text : Text) : Option (Nat × Text) :=
  let digits := (text.take most).takeWhile Char.isDigit
  if digits.length < least then none
  else (Text.Numeral.ofDigits? 10 digits).map fun n => (n, text.drop digits.length)

/-- What follows a character at the front of a text. -/
def after? (c : Char) (text : Text) : Option Text := Text.after? [c] text

/-- Whether a character separates words on a line. -/
def isGap (c : Char) : Bool := c = ' ' || c = '\t'

/-- The time zone that a text spells as a whole: none, the letter Z, or hours with or without
minutes. -/
def zone? (text : Text) : Option (Option Int) :=
  match text.dropWhile isGap with
  | [] => if text.isEmpty then some none else none
  | ['Z'] => some (some 0)
  | sign :: rest =>
    if sign = '+' || sign = '-' then do
      let (hours, rest) ← readDigits? 1 2 rest
      let minutes ← match rest with
        | [] => some 0
        | ':' :: rest => do
          let (minutes, rest) ← readDigits? 2 2 rest
          if rest.isEmpty then some minutes else none
        | _ => none
      let size : Int := hours * 60 + minutes
      some (some (if sign = '-' then -size else size))
    else none

/-- The microseconds that the digits behind the point spell; those beyond six do not count. -/
def microseconds (digits : Text) : Nat :=
  let digits := digits.take 6
  ((Text.Numeral.ofDigits? 10 digits).getD 0) * Nat.pow 10 (6 - digits.length)

/-- The day at the front of a text and what follows it, with months and days of at least `least`
digits. -/
def day? (least : Nat) (text : Text) : Option ((Nat × Nat × Nat) × Text) := do
  let (year, rest) ← readDigits? 4 4 text
  let (month, rest) ← readDigits? least 2 (← after? '-' rest)
  let (day, rest) ← readDigits? least 2 (← after? '-' rest)
  some ((year, month, day), rest)

/-- What follows the mark between a day and a time: the letter T, or blanks. -/
def afterMark? : Text → Option Text
  | [] => none
  | c :: cs =>
    if c = 'T' || c = 't' then some cs else if isGap c then some (cs.dropWhile isGap) else none

/-- The moment that a text spells as a whole. -/
def moment? (text : Text) : Option Moment := do
  let ((year, month, day), rest) ← day? 1 text
  let (hour, rest) ← readDigits? 1 2 (← afterMark? rest)
  let (minute, rest) ← readDigits? 2 2 (← after? ':' rest)
  let (second, rest) ← readDigits? 2 2 (← after? ':' rest)
  let (fraction, rest) := match rest with
    | '.' :: rest => (rest.takeWhile Char.isDigit, rest.dropWhile Char.isDigit)
    | _ => ([], rest)
  let zone ← zone? rest
  some ⟨year, month, day, hour, minute, second, microseconds fraction, zone⟩

/-- The day that a text spells as a whole, with months and days of at least `least` digits. -/
def date? (least : Nat) (text : Text) : Option (Nat × Nat × Nat) :=
  match day? least text with
  | some (day, []) => some day
  | _ => none

/-- Whether a plain scalar is a date or a time. A date by itself has two digits for month and day. -/
def isTimestamp (text : Text) : Bool := (date? 2 text).isSome || (moment? text).isSome

/-- Fails unless a condition holds. -/
def require (condition : Bool) (fault : ScalarFault) : Except ScalarFault Unit :=
  if condition then .ok () else .error fault

/-- Fails unless the calendar has the day. -/
def requireDay (year month day : Nat) : Except ScalarFault Unit := do
  require (year ≠ 0) (.noYear year)
  require (1 ≤ month && month ≤ 12) .noMonth
  require (1 ≤ day && day ≤ daysIn year month) .noDay

/-- The date or moment that a scalar spells, if the calendar and the clock have it. A line feed at
the end does not count. -/
def scalar (text : Text) : Except ScalarFault Scalar := do
  let text := Text.dropLineEnd text
  match date? 1 text, moment? text with
  | some (year, month, day), _ =>
    requireDay year month day
    return .date year month day
  | none, some moment =>
    let offset := moment.zone?.getD 0
    require (offset.natAbs < 24 * 60) (.noZone offset)
    requireDay moment.year moment.month moment.day
    require (moment.hour ≤ 23) .noHour
    require (moment.minute ≤ 59) .noMinute
    require (moment.second ≤ 59) .noSecond
    return .moment moment
  | none, none => throw .noDate

end FlowTemplate.Yaml.Date

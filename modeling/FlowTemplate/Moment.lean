/-
Moments: a day of the calendar and a time of the day, with or without a time zone. Two moments with
time zones are the same if they name the same instant.
-/
import FlowTemplate.Text.Basic

namespace FlowTemplate

/-! ## The calendar -/

/-- Whether a year has a leap day. -/
def isLeap (year : Nat) : Bool := year % 4 = 0 && (year % 100 ≠ 0 || year % 400 = 0)

/-- How many days a month has. -/
def daysIn (year month : Nat) : Nat :=
  if month = 2 then if isLeap year then 29 else 28
  else if [4, 6, 9, 11].contains month then 30 else 31

/-- How many days there are from the first of the year one up to a day. -/
def daysBefore (year month day : Nat) : Nat :=
  let years := year - 1
  let months := (List.range (month - 1)).foldl (fun days n => days + daysIn year (n + 1)) 0
  365 * years + years / 4 - years / 100 + years / 400 + months + (day - 1)

/-! ## Moments -/

/-- A moment of a calendar day, with the offset of its time zone in minutes if it names one. -/
structure Moment where
  year : Nat
  month : Nat
  day : Nat
  hour : Nat
  minute : Nat
  second : Nat
  microsecond : Nat
  zone? : Option Int
  deriving DecidableEq, Repr

namespace Moment

/-- The microseconds from the first of the year one up to a moment, by the clock of the zone in
which the offset is zero. -/
def instant (moment : Moment) : Int :=
  let days : Int := daysBefore moment.year moment.month moment.day
  let minutes := (days * 24 + moment.hour) * 60 + moment.minute - moment.zone?.getD 0
  (minutes * 60 + moment.second) * 1000000 + moment.microsecond

/-- Whether two moments are the same. One with a time zone and one without never are. -/
def same (a b : Moment) : Bool :=
  match a.zone?, b.zone? with
  | none, none => a = b
  | some _, some _ => a.instant = b.instant
  | _, _ => false

end Moment

/-! ## Written forms -/

namespace DateText

/-- A name applied to arguments. -/
def call (name : String) (arguments : List Text) : Text :=
  "datetime.".toList ++ name.toList ++ ['('] ++ Text.joinWith ", ".toList arguments ++ [')']

/-- The length of some minutes in whole days, which may be fewer than none, and seconds. -/
def ofMinutes (minutes : Int) : Text :=
  let days := Int.fdiv minutes 1440
  let seconds := Int.fmod minutes 1440 * 60
  let part (name : String) (n : Int) : List Text :=
    if n = 0 then [] else [name.toList ++ Text.ofInt n]
  let parts := part "days=" days ++ part "seconds=" seconds
  call "timedelta" (if parts.isEmpty then [['0']] else parts)

/-- The time zone with an offset in minutes. -/
def ofZone (minutes : Int) : Text :=
  if minutes = 0 then "datetime.timezone.utc".toList else call "timezone" [ofMinutes minutes]

/-- A day. -/
def ofDay (year month day : Nat) : Text := call "date" ([year, month, day].map Text.ofNat)

/-- A moment. Seconds and microseconds are left out where they and all behind them are zero. -/
def ofMoment (moment : Moment) : Text :=
  let finest :=
    if moment.microsecond ≠ 0 then [moment.second, moment.microsecond]
    else if moment.second ≠ 0 then [moment.second]
    else []
  let numbers := [moment.year, moment.month, moment.day, moment.hour, moment.minute] ++ finest
  let zone := moment.zone?.toList.map fun minutes => "tzinfo=".toList ++ ofZone minutes
  call "datetime" (numbers.map Text.ofNat ++ zone)

end DateText

end FlowTemplate

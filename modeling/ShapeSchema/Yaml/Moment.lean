import ShapeSchema.Json.Reader

/-!
Dates and times as texts: a date, or a date and a time of day with a fraction of a second and an
offset. A text may have this form and still name no moment, such as the thirtieth of February.
-/

namespace ShapeSchema.Yaml

/-- A time of day and an offset. -/
structure TimeOfDay where
  hour : Nat
  minute : Nat
  second : Nat
  /-- How far the offset is from none, in minutes. -/
  offset : Nat
deriving DecidableEq

/-- A date, and perhaps a time of day. -/
structure Moment where
  year : Nat
  month : Nat
  day : Nat
  /-- Whether month and day are written with two digits. -/
  padded : Bool
  time? : Option TimeOfDay
deriving DecidableEq

namespace Moment

def daysOfMonth (year month : Nat) : Nat :=
  if month = 2 then
    if year % 4 = 0 ∧ (year % 100 ≠ 0 ∨ year % 400 = 0) then 29 else 28
  else if [4, 6, 9, 11].contains month then 30
  else 31

/-- Whether there is such a date, such a time of day and such an offset. -/
def exists? (moment : Moment) : Bool :=
  1 ≤ moment.year && 1 ≤ moment.month && moment.month ≤ 12 && 1 ≤ moment.day &&
    moment.day ≤ daysOfMonth moment.year moment.month &&
    moment.time?.all fun time =>
      time.hour < 24 && time.minute < 60 && time.second < 60 && time.offset < 24 * 60

/-- One digit or two, as a number. -/
def shortNumber? (cs : List Char) : Option Nat :=
  if (cs.length == 1 || cs.length == 2) && cs.all Json.isDigit then some (Json.digitsValue cs)
  else none

/-- Two digits, as a number. -/
def pair? (cs : List Char) : Option Nat :=
  if cs.length == 2 then shortNumber? cs else none

def isGap (c : Char) : Bool :=
  c == ' ' || c == '\t'

/-- The offset of a time in minutes: a `Z`, or a sign, hours and perhaps minutes. -/
def offset? (cs : List Char) : Option Nat :=
  match cs.dropWhile isGap with
  | [] => if cs.isEmpty then some 0 else none
  | ['Z'] => some 0
  | sign :: offset =>
    if sign == '+' || sign == '-' then
      match offset.splitOn ':' with
      | [hours] => (shortNumber? hours).map (· * 60)
      | [hours, minutes] => do return (← shortNumber? hours) * 60 + (← pair? minutes)
      | _ => none
    else none

/-- The fraction of a second, left out or with a point in front, and what follows it. -/
def dropFraction : List Char → List Char
  | '.' :: cs => cs.dropWhile Json.isDigit
  | cs => cs

def readTime? (cs : List Char) : Option TimeOfDay := do
  let isClock (c : Char) : Bool := Json.isDigit c || c == ':'
  match (cs.takeWhile isClock).splitOn ':' with
  | [hour, minute, second] =>
    return ⟨← shortNumber? hour, ← pair? minute, ← pair? second,
      ← offset? (dropFraction (cs.dropWhile isClock))⟩
  | _ => none

def read? (cs : List Char) : Option Moment := do
  let isDay (c : Char) : Bool := Json.isDigit c || c == '-'
  match (cs.takeWhile isDay).splitOn '-' with
  | [year, month, day] =>
    if year.length != 4 then none
    let padded := month.length == 2 && day.length == 2
    let time? ← match cs.dropWhile isDay with
      | [] => some none
      | c :: rest =>
        if c == 'T' || c == 't' then (readTime? rest).map some
        else if isGap c then (readTime? (rest.dropWhile isGap)).map some
        else none
    return ⟨Json.digitsValue year, ← shortNumber? month, ← shortNumber? day, padded, time?⟩
  | _ => none

end Moment
end ShapeSchema.Yaml

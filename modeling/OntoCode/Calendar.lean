/-
Dates and times of day, and their ISO notations.

A date is written with or without dashes, by month and day or by week.  A time has
two digits for each of its parts, all of them with colons between or none; the last
part may have a fraction, which counts to the microsecond.  An offset from universal
time stays below a day.
-/
import OntoCode.Number.Numeral

namespace OntoCode.Calendar

open OntoCode.Number OntoCode.Text

/-- Whether a year has a 29th of February. -/
def isLeap (year : Nat) : Bool := year % 4 = 0 && (year % 100 ≠ 0 || year % 400 = 0)

/-- The number of days of a month. -/
def daysIn (year month : Nat) : Nat :=
  if month = 2 then (if isLeap year then 29 else 28)
  else if month = 4 || month = 6 || month = 9 || month = 11 then 30 else 31

/-- A day of the Gregorian calendar. -/
structure Date where
  year : Nat
  month : Nat
  day : Nat
  deriving DecidableEq, Repr

/-- The day with a year of four digits, a month of the year and a day of the month. -/
def Date.of? (year month day : Nat) : Option Date :=
  if 1 ≤ year && year ≤ 9999 && 1 ≤ month && month ≤ 12 && 1 ≤ day && day ≤ daysIn year month then
    some ⟨year, month, day⟩
  else none

/-- The days of a year before a month. -/
def daysBefore (year month : Nat) : Nat :=
  ((List.range 12).filter fun m => m + 1 < month).foldl (fun n m => n + daysIn year (m + 1)) 0

/-- The first day of a year, counted from the first day of year 1, which is number 1. -/
def newYear (year : Nat) : Nat :=
  365 * (year - 1) + (year - 1) / 4 - (year - 1) / 100 + (year - 1) / 400 + 1

/-- The weekday of the first day of a year; Monday is 0. -/
def newYearWeekday (year : Nat) : Nat := (newYear year + 6) % 7

/-- Whether a year has 53 weeks. -/
def isLongYear (year : Nat) : Bool :=
  newYearWeekday year = 3 || (newYearWeekday year = 2 && isLeap year)

/-- The day at a place of the year, counted from 1. -/
def Date.ofDayOfYear? (year dayOfYear : Nat) : Option Date :=
  (List.range 12).findSome? fun m =>
    let before := daysBefore year (m + 1)
    if before < dayOfYear && dayOfYear ≤ before + daysIn year (m + 1) then
      Date.of? year (m + 1) (dayOfYear - before)
    else none

/-- The day of a numbered week of a year.  Week 1 is the one with the first Thursday. -/
def Date.ofWeek? (year week weekday : Nat) : Option Date :=
  if 1 ≤ year && year ≤ 9999 && 1 ≤ week && (week ≤ 52 || week = 53 && isLongYear year) &&
      1 ≤ weekday && weekday ≤ 7 then
    let first := newYearWeekday year
    let place : Int := 7 * (week - 1) + weekday - (first : Int) + (if 3 < first then 7 else 0)
    let length := if isLeap year then 366 else 365
    if place < 1 then
      let before := if isLeap (year - 1) then 366 else 365
      Date.ofDayOfYear? (year - 1) (before + place).toNat
    else if length < place.toNat then Date.ofDayOfYear? (year + 1) (place.toNat - length)
    else Date.ofDayOfYear? year place.toNat
  else none

/-- The value of a text of ASCII digits only. -/
def digits? (s : List Char) : Option Nat :=
  if s ≠ [] && s.all isAsciiDigit then some (natOfDigits s) else none

/-- The day that an ISO notation names.  A notation has seven, eight or ten characters; one without
dashes ends with the day, whatever follows. -/
def Date.read? (s : List Char) : Option Date := do
  let year ← if s.length ∈ [7, 8, 10] then digits? (s.take 4) else none
  match s.drop 4 with
  | ['-', 'W', a, b, '-', d] => Date.ofWeek? year (← digits? [a, b]) (← digits? [d])
  | ['-', 'W', a, b] => Date.ofWeek? year (← digits? [a, b]) 1
  | 'W' :: a :: b :: d :: _ => Date.ofWeek? year (← digits? [a, b]) (← digits? [d])
  | ['W', a, b] => Date.ofWeek? year (← digits? [a, b]) 1
  | ['-', a, b, '-', c, d] => Date.of? year (← digits? [a, b]) (← digits? [c, d])
  | a :: b :: c :: d :: _ => Date.of? year (← digits? [a, b]) (← digits? [c, d])
  | _ => none

/-- The day in the notation with dashes. -/
def Date.text (d : Date) : List Char :=
  padded 4 d.year ++ '-' :: padded 2 d.month ++ '-' :: padded 2 d.day

/-- The year of a day. -/
def Date.yearText (d : Date) : List Char := padded 4 d.year

/-- The month of a day, behind its year. -/
def Date.monthText (d : Date) : List Char := padded 4 d.year ++ '-' :: padded 2 d.month

/-- A time of day or an offset: hours, minutes, seconds and microseconds. -/
structure Clock where
  hour : Nat
  minute : Nat
  second : Nat
  microsecond : Nat
  deriving DecidableEq, Repr

/-- An offset from universal time: whether it is behind, and by how much. -/
structure Offset where
  behind : Bool
  amount : Clock
  deriving DecidableEq, Repr

/-- A time of day, with its offset from universal time if it has one. -/
structure Time where
  clock : Clock
  offset : Option Offset := none
  deriving DecidableEq, Repr

/-- A day with a time. -/
structure DateTime where
  date : Date
  time : Time
  deriving DecidableEq, Repr

/-- The parts of a clock reading, the microseconds of its fraction, and whether nothing is left
behind them. -/
structure Reading where
  parts : List Nat
  microsecond : Nat := 0
  complete : Bool := true

/-- The fraction of the last part: digits, of which the first six count. -/
def readFraction? (parts : List Nat) (s : List Char) : Option Reading :=
  (digits? (s.take 6)).map fun value =>
    { parts, microsecond := value * tenTo (6 - (s.take 6).length),
      complete := ((s.drop 6).dropWhile isAsciiDigit).isEmpty }

/-- Reads the parts of a clock, at most the given number, behind those already read.  The
character behind the first part settles whether colons stand between them. -/
def readParts? (parts : List Nat) (colons : Option Bool) : Nat → List Char → Option Reading
  | left, a :: b :: rest => do
    let parts := parts ++ [← digits? [a, b]]
    match rest with
    | [] => some { parts }
    | [_] => some { parts, complete := false }
    | c :: more =>
      let colons := colons.getD (c = ':')
      let next : List Char → Option Reading :=
        match left with
        | left + 1 => readParts? parts (some colons) left
        | 0 => readFraction? parts
      if colons && c = ':' then next more
      else if c = '.' || c = ',' then readFraction? parts more
      else if colons then none
      else next (c :: more)
  | _, _ => none

/-- The clock that a reading shows: parts that were not read are zero. -/
def Reading.clock (r : Reading) : Clock :=
  ⟨r.parts.getD 0 0, r.parts.getD 1 0, r.parts.getD 2 0, r.microsecond⟩

/-- Whether a clock shows a time of day. -/
def Clock.isTimeOfDay (c : Clock) : Bool := c.hour ≤ 23 && c.minute ≤ 59 && c.second ≤ 59

/-- The seconds of a clock. -/
def Clock.seconds (c : Clock) : Nat := 3600 * c.hour + 60 * c.minute + c.second

/-- The offset of an amount: less than a day, its parts carried over, none below a second. -/
def Offset.of? (behind : Bool) (c : Clock) : Option Offset :=
  let seconds := c.seconds
  if seconds = 0 then some ⟨false, 0, 0, 0, 0⟩
  else if seconds < 86400 then
    some ⟨behind, seconds / 3600, seconds / 60 % 60, seconds % 60, c.microsecond⟩
  else none

/-- The time that an ISO notation names, without the letter in front of it. -/
def Time.ofClock? (s : List Char) : Option Time := do
  let isZone (c : Char) : Bool := c = '+' || c = '-' || c = 'Z'
  let reading ← readParts? [] none 2 (s.takeWhile fun c => !isZone c)
  if !reading.clock.isTimeOfDay then none
  else
    match s.dropWhile fun c => !isZone c with
    | [] => if reading.complete then some { clock := reading.clock } else none
    | ['Z'] => some { clock := reading.clock, offset := some ⟨false, 0, 0, 0, 0⟩ }
    | sign :: zone =>
      if sign = 'Z' then none
      else
        let amount ← readParts? [] none 2 zone
        if amount.complete then
          some { clock := reading.clock, offset := some (← Offset.of? (sign = '-') amount.clock) }
        else none

/-- The time that an ISO notation names. -/
def Time.read? : List Char → Option Time
  | 'T' :: s => Time.ofClock? s
  | s => Time.ofClock? s

/-- Where the date of a date with time ends: the notation of the date tells. -/
def dateLength (s : List Char) : Nat :=
  if s.length = 7 then 7
  else
    match s.drop 4 with
    | '-' :: 'W' :: _ =>
      if s.getD 8 ' ' = '-' && 8 < s.length then
        if 10 < s.length && isAsciiDigit (s.getD 10 ' ') then 8 else 10
      else 8
    | '-' :: _ => 10
    | 'W' :: _ =>
      let run := ((s.drop 7).takeWhile isAsciiDigit).length + 7
      if run < 9 then run else if run % 2 = 0 then 7 else 8
    | _ => 8

/-- The day and time that an ISO notation names; any character may stand between the two, and a
day alone is its midnight. -/
def DateTime.read? (s : List Char) : Option DateTime := do
  if s.length < 7 then none
  else
    let date ← Date.read? (s.take (dateLength s))
    match s.drop (dateLength s) with
    | [] => some ⟨date, { clock := ⟨0, 0, 0, 0⟩ }⟩
    | _ :: time => some ⟨date, ← Time.ofClock? time⟩

/-- The microseconds behind a point, if there are any. -/
def fractionText (microsecond : Nat) : List Char :=
  if microsecond = 0 then [] else '.' :: padded 6 microsecond

/-- The offset as text: seconds only where it has some. -/
def Offset.text (o : Offset) : List Char :=
  (if o.behind then '-' else '+') :: padded 2 o.amount.hour ++ ':' :: padded 2 o.amount.minute ++
    (if o.amount.second = 0 && o.amount.microsecond = 0 then []
     else ':' :: padded 2 o.amount.second) ++ fractionText o.amount.microsecond

/-- The time in the notation with colons. -/
def Time.text (t : Time) : List Char :=
  padded 2 t.clock.hour ++ ':' :: padded 2 t.clock.minute ++ ':' :: padded 2 t.clock.second ++
    fractionText t.clock.microsecond ++
    match t.offset with
    | some offset => offset.text
    | none => []

/-- Day and time with a character between them. -/
def DateTime.textWith (separator : Char) (d : DateTime) : List Char :=
  d.date.text ++ separator :: d.time.text

/-- Day and time in the ISO notation. -/
def DateTime.text (d : DateTime) : List Char := d.textWith 'T'

end OntoCode.Calendar

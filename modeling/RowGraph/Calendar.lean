import RowGraph.Text.Blank
import RowGraph.Text.Decimal

/-!
# Calendar dates and times of day

Dates of the Gregorian calendar, extended to both sides of its start, and times of day to the
nanosecond. A time may lie inside a leap second: then its nanoseconds go on past the end of its
second, which may be any second, since nanoseconds can be set by themselves. Both types hold valid
values only.

A year of four digits is written bare; every other year has a sign and at least four digits. A
fraction of a second has three, six or nine digits, or is left out. A leap second is written as the
second after its own; in a text that is read, only the second 60 is one.

Modelled: dates and times as far as values need them: which are valid, their texts in both forms,
and how a text is read.

Left out: arithmetic on dates, other calendars and zones of time.
-/

namespace RowGraph

/-- Whether the year has a 29th of February. -/
def isLeapYear (year : Int) : Bool :=
  year % 4 = 0 && (year % 100 ≠ 0 || year % 400 = 0)

/-- The days of a month, zero when there is no such month. -/
def daysInMonth (year : Int) : Nat → Nat
  | 1 | 3 | 5 | 7 | 8 | 10 | 12 => 31
  | 4 | 6 | 9 | 11 => 30
  | 2 => if isLeapYear year then 29 else 28
  | _ => 0

/-- Whether there is such a day within the supported years. -/
def Date.isValid (year : Int) (month day : Nat) : Bool :=
  -262143 ≤ year && year ≤ 262142 && 1 ≤ day && day ≤ daysInMonth year month

/-- A calendar date. -/
structure Date where
  year : Int
  month : Nat
  day : Nat
  valid : Date.isValid year month day = true
deriving DecidableEq

/-- Whether there is such a time of day. The nanoseconds of a leap second go up to two seconds, and
any second can have one. -/
def Time.isValid (hour minute second nano : Nat) : Bool :=
  hour < 24 && minute < 60 && second < 60 && nano < 2000000000

/-- A time of day. -/
structure Time where
  hour : Nat
  minute : Nat
  second : Nat
  nano : Nat
  valid : Time.isValid hour minute second nano = true
deriving DecidableEq

/-- A date and a time of day. -/
structure DateTime where
  date : Date
  time : Time
deriving DecidableEq

namespace Date

/-- The date with these parts, if there is one. -/
def of? (year : Int) (month day : Nat) : Option Date :=
  if h : isValid year month day = true then some ⟨year, month, day, h⟩ else none

/-- A year of four digits bare, every other one with a sign. -/
def yearText (year : Int) : String :=
  if 0 ≤ year ∧ year ≤ 9999 then Text.padded 4 year.natAbs
  else (if year < 0 then "-" else "+") ++ Text.padded 4 year.natAbs

/-- Year, month and day with hyphens. -/
def text (d : Date) : String :=
  yearText d.year ++ "-" ++ Text.padded 2 d.month ++ "-" ++ Text.padded 2 d.day

theorem month_le (d : Date) : 1 ≤ d.month ∧ d.month ≤ 12 := by
  have h := d.valid
  simp only [isValid, Bool.and_eq_true, decide_eq_true_eq] at h
  have hpos : 0 < daysInMonth d.year d.month := by omega
  unfold daysInMonth at hpos
  split at hpos <;> simp_all

theorem day_le (d : Date) : 1 ≤ d.day ∧ d.day ≤ 31 := by
  have h := d.valid
  simp only [isValid, Bool.and_eq_true, decide_eq_true_eq] at h
  have hle : daysInMonth d.year d.month ≤ 31 := by
    unfold daysInMonth
    split <;> (try split) <;> omega
  omega

end Date

namespace Time

/-- The time with these parts, if there is one. -/
def of? (hour minute second nano : Nat) : Option Time :=
  if h : isValid hour minute second nano = true then some ⟨hour, minute, second, nano, h⟩ else none

/-- The fraction of a second, in as many groups of three digits as it needs. -/
def fractionText (nano : Nat) : String :=
  if nano = 0 then ""
  else if nano % 1000000 = 0 then "." ++ Text.padded 3 (nano / 1000000)
  else if nano % 1000 = 0 then "." ++ Text.padded 6 (nano / 1000)
  else "." ++ Text.padded 9 nano

/-- Hour, minute and second with colons; a leap second is the second after its own. -/
def text (t : Time) : String :=
  Text.padded 2 t.hour ++ ":" ++ Text.padded 2 t.minute ++ ":" ++
    Text.padded 2 (t.second + t.nano / 1000000000) ++ fractionText (t.nano % 1000000000)

end Time

namespace DateTime

/-- Date and time with `separator` between them. -/
def textWith (separator : String) (t : DateTime) : String :=
  t.date.text ++ separator ++ t.time.text

/-- Date and time with a blank between them. -/
def text (t : DateTime) : String := t.textWith " "

/-- Date and time with a `T` between them. -/
def isoText (t : DateTime) : String := t.textWith "T"

end DateTime

/-! ## Reading

Blanks may stand around the separators; a number has no more digits than its place allows.
-/

namespace Calendar

/-- A number of one to `width` digits after blanks, and the rest. -/
def number? (width : Nat) (cs : List Char) : Option (Nat × List Char) :=
  let cs := Text.skipBlanks cs
  let digits := (cs.take width).takeWhile Char.isDigit
  match digits with
  | [] => none
  | _ => (Text.digitsNumber? digits).map fun n => (n, cs.drop digits.length)

/-- A year: four digits, or a sign and any number of digits. -/
def year? (cs : List Char) : Option (Int × List Char) :=
  match Text.skipBlanks cs with
  | '-' :: d :: rest => if d.isDigit then
      (number? (rest.length + 1) (d :: rest)).map fun (n, rest) => (-(n : Int), rest)
    else none
  | '+' :: d :: rest => if d.isDigit then
      (number? (rest.length + 1) (d :: rest)).map fun (n, rest) => ((n : Int), rest)
    else none
  | cs => (number? 4 cs).map fun (n, rest) => ((n : Int), rest)

/-- What follows a separator that blanks may precede. -/
def after? (separator : Char) (cs : List Char) : Option (List Char) :=
  match Text.skipBlanks cs with
  | c :: rest => if c = separator then some rest else none
  | [] => none

/-- A fraction of a second in nanoseconds; digits after the ninth are passed over. -/
def fraction? : List Char → Option (Nat × List Char)
  | '.' :: rest =>
    let digits := rest.takeWhile Char.isDigit
    match digits with
    | [] => none
    | _ =>
      let nine := (digits ++ List.replicate 9 '0').take 9
      (Text.digitsNumber? nine).map fun n => (n, rest.drop digits.length)
  | cs => some (0, cs)

/-- A date and the rest. -/
def date? (cs : List Char) : Option (Date × List Char) := do
  let (year, cs) ← year? cs
  let (month, cs) ← number? 2 (← after? '-' cs)
  let (day, cs) ← number? 2 (← after? '-' cs)
  return (← Date.of? year month day, cs)

/-- A time of day and the rest; the second 60 is a leap second. -/
def time? (cs : List Char) : Option (Time × List Char) := do
  let (hour, cs) ← number? 2 cs
  let (minute, cs) ← number? 2 (← after? ':' cs)
  let (second, cs) ← number? 2 (← after? ':' cs)
  let (nano, cs) ← fraction? cs
  let time ← if second = 60 then Time.of? hour minute 59 (1000000000 + nano)
    else Time.of? hour minute second nano
  return (time, cs)

end Calendar

/-- The date that a text writes. -/
def Date.read? (s : String) : Option Date := do
  let (date, rest) ← Calendar.date? s.toList
  if (Text.skipBlanks rest).isEmpty then some date else none

/-- The date and time that a text writes, with a `T` between them. -/
def DateTime.read? (s : String) : Option DateTime := do
  let (date, cs) ← Calendar.date? s.toList
  let (time, rest) ← Calendar.time? (← Calendar.after? 'T' cs)
  if (Text.skipBlanks rest).isEmpty then some ⟨date, time⟩ else none

end RowGraph

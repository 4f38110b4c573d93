import MemberStubs.Text.Blank
import MemberStubs.Text.Digits

namespace MemberStubs

/-! A moment in Coordinated Universal Time: a day counted from 1970-01-01, a second of that day, and
nanoseconds. A leap second is the last second of a minute with a full second of nanoseconds more. -/

structure Timestamp where
  day : Int
  second : Nat
  nanosecond : Nat
  deriving DecidableEq, Repr, Inhabited

namespace Timestamp

/-! ## The calendar

Years are counted from March, so that a leap day is the last day of its year. Four hundred years
have 146097 days. -/

structure Date where
  year : Int
  month : Nat
  day : Nat
  deriving DecidableEq, Repr

def isLeapYear (year : Int) : Bool :=
  year % 4 = 0 && (year % 100 ≠ 0 || year % 400 = 0)

def daysInMonth (year : Int) (month : Nat) : Nat :=
  if month = 2 then if isLeapYear year then 29 else 28
  else if [4, 6, 9, 11].contains month then 30
  else 31

def Date.exists (date : Date) : Bool :=
  1 ≤ date.month && date.month ≤ 12 && 1 ≤ date.day && date.day ≤ daysInMonth date.year date.month

def Date.dayNumber (date : Date) : Int :=
  let year := if date.month ≤ 2 then date.year - 1 else date.year
  let month := (date.month + 9) % 12
  let dayOfYear := (153 * month + 2) / 5 + date.day - 1
  let yearOfEra := year % 400
  (year / 400) * 146097 + yearOfEra * 365 + yearOfEra / 4 - yearOfEra / 100 + dayOfYear - 719468

def Date.ofDayNumber (number : Int) : Date :=
  let shifted := number + 719468
  let era := shifted / 146097
  let dayOfEra := (shifted % 146097).toNat
  let yearOfEra := (dayOfEra - dayOfEra / 1460 + dayOfEra / 36524 - dayOfEra / 146096) / 365
  let dayOfYear := dayOfEra - (365 * yearOfEra + yearOfEra / 4 - yearOfEra / 100)
  let monthFromMarch := (5 * dayOfYear + 2) / 153
  let day := dayOfYear - (153 * monthFromMarch + 2) / 5 + 1
  let month := if monthFromMarch < 10 then monthFromMarch + 3 else monthFromMarch - 9
  let year : Int := era * 400 + yearOfEra
  ⟨if month ≤ 2 then year + 1 else year, month, day⟩

example : Date.dayNumber ⟨2024, 2, 29⟩ = 19782 := by decide

example : Date.ofDayNumber 19782 = ⟨2024, 2, 29⟩ := by decide

/-- The years a timestamp may lie in. -/
def isYear (year : Int) : Bool :=
  -262143 ≤ year && year ≤ 262142

/-! ## Writing -/

def twoDigits (value : Nat) : List Char :=
  [Nat.digitChar (value / 10 % 10), Nat.digitChar (value % 10)]

def paddedDigits (width value : Nat) : List Char :=
  let digits := Nat.toDigits 10 value
  List.replicate (width - digits.length) '0' ++ digits

/-- A year outside 0 to 9999 carries its sign. -/
def yearText (year : Int) : List Char :=
  if 0 ≤ year ∧ year ≤ 9999 then paddedDigits 4 year.toNat
  else (if year < 0 then '-' else '+') :: paddedDigits 4 year.natAbs

/-- No fraction, milliseconds, microseconds or nanoseconds: the first that is exact. -/
def fractionText (nanosecond : Nat) : List Char :=
  if nanosecond = 0 then []
  else if nanosecond % 1000000 = 0 then '.' :: paddedDigits 3 (nanosecond / 1000000)
  else if nanosecond % 1000 = 0 then '.' :: paddedDigits 6 (nanosecond / 1000)
  else '.' :: paddedDigits 9 nanosecond

def text (timestamp : Timestamp) : String :=
  let date := Date.ofDayNumber timestamp.day
  let leap := timestamp.nanosecond / 1000000000
  String.ofList <|
    yearText date.year ++ '-' :: twoDigits date.month ++ '-' :: twoDigits date.day ++
    'T' :: twoDigits (timestamp.second / 3600) ++ ':' :: twoDigits (timestamp.second / 60 % 60) ++
    ':' :: twoDigits (timestamp.second % 60 + leap) ++
    fractionText (timestamp.nanosecond % 1000000000) ++ ['Z']

/-! ## Reading

Blanks may stand before every number and every separator. A step takes what it reads from the front
of the text. -/

abbrev Step (α : Type) := StateT (List Char) Option α

def literal (c : Char) : Step Unit := fun chars =>
  match Text.trimStart chars with
  | d :: rest => if c = d then some ((), rest) else none
  | [] => none

/-- At most `width` digits, and at least one. -/
def number (width : Nat) : Step Nat := fun chars =>
  let chars := Text.trimStart chars
  let digits := (chars.take width).takeWhile Char.isDigit
  if digits = [] then none else some (Text.natOfDigits digits, chars.drop digits.length)

/-- Four digits at most, or any number of them behind a sign. -/
def year : Step Int := fun chars =>
  match Text.trimStart chars with
  | '-' :: rest =>
      let digits := rest.takeWhile Char.isDigit
      if digits = [] then none else some (-(Text.natOfDigits digits : Int), rest.dropWhile Char.isDigit)
  | '+' :: rest =>
      let digits := rest.takeWhile Char.isDigit
      if digits = [] then none else some (Text.natOfDigits digits, rest.dropWhile Char.isDigit)
  | chars => (number 4 chars).map fun (value, rest) => (value, rest)

def separator : Step Unit
  | c :: rest => if [' ', 't', 'T'].contains c then some ((), rest) else none
  | [] => none

/-- Nine digits of a fraction count, and any more are passed over. -/
def fraction : Step Nat
  | '.' :: rest =>
      let digits := rest.takeWhile Char.isDigit
      if digits = [] then none
      else
        let counted := digits.take 9
        let zeros := List.replicate (9 - counted.length) '0'
        some (Text.natOfDigits (counted ++ zeros), rest.dropWhile Char.isDigit)
  | chars => some (0, chars)

def offsetMinutes : Step Nat := fun chars =>
  match chars.dropWhile fun c => c = ':' || Text.isBlank c with
  | a :: b :: rest =>
      if '0' ≤ a ∧ a ≤ '5' ∧ b.isDigit then some (Text.natOfDigits [a, b], rest) else none
  | _ => none

def offsetSeconds : Step Nat
  | a :: b :: rest =>
      if a.isDigit ∧ b.isDigit then
        (offsetMinutes rest).map fun (minutes, rest) =>
          (3600 * Text.natOfDigits [a, b] + 60 * minutes, rest)
      else none
  | _ => none

/-- Seconds to the east. The minus sign of mathematics is as good as a hyphen. -/
def offset : Step Int := fun chars =>
  match Text.trimStart chars with
  | 'Z' :: rest => some (0, rest)
  | 'z' :: rest => some (0, rest)
  | '+' :: rest => (offsetSeconds rest).map fun (seconds, rest) => (seconds, rest)
  | '-' :: rest => (offsetSeconds rest).map fun (seconds, rest) => (-seconds, rest)
  | '−' :: rest => (offsetSeconds rest).map fun (seconds, rest) => (-seconds, rest)
  | a :: b :: c :: rest =>
      if [a, b, c].map Char.toLower = ['u', 't', 'c'] then some (0, rest) else none
  | _ => none

/-- The moment that shows as `date` and `second` on clocks `offset` seconds to the east. -/
def ofLocal? (date : Date) (second nanosecond : Nat) (offset : Int) : Option Timestamp :=
  let elapsed := date.dayNumber * 86400 + second - offset
  let day := elapsed / 86400
  if date.exists && isYear date.year && offset.natAbs < 86400 && isYear (Date.ofDayNumber day).year
  then some ⟨day, (elapsed % 86400).toNat, nanosecond⟩
  else none

def fields : Step (Option Timestamp) := do
  let year ← year
  literal '-'
  let month ← number 2
  literal '-'
  let day ← number 2
  separator
  let hour ← number 2
  literal ':'
  let minute ← number 2
  literal ':'
  let second ← number 2
  let nanosecond ← fraction
  let offset ← offset
  if hour < 24 && minute < 60 && second ≤ 60 then
    let leap := if second = 60 then 1000000000 else 0
    let elapsed := 3600 * hour + 60 * minute + min second 59
    pure (ofLocal? ⟨year, month, day⟩ elapsed (nanosecond + leap) offset)
  else pure none

def parse? (text : String) : Option Timestamp :=
  match fields text.toList with
  | some (timestamp, rest) => if (Text.trimStart rest).isEmpty then timestamp else none
  | none => none

example : (parse? "2024-01-02T03:04:05.120+01:30").map text = some "2024-01-02T01:34:05.120Z" := by
  decide +kernel

example : parse? "2023-02-29T00:00:00Z" = none := by decide +kernel

end Timestamp

end MemberStubs

import ModuleDepot.Json.Reader

/-!
Moments: nanoseconds since the start of 1970, and the offset from universal time
at which they are written. The written form is `2024-02-29T23:59:59.5+01:00`,
for years of four digits; a universal time ends in `Z`.
-/

namespace ModuleDepot

/-- A moment, with the offset in minutes at which it is written. -/
structure Moment where
  nanos : Int
  offset : Int
deriving DecidableEq

namespace Moment

def second : Int := 1000000000

def day : Int := 86400 * second

def ofNanos (nanos : Int) : Moment := ⟨nanos, 0⟩

/-! ## Calendar -/

structure Date where
  year : Int
  month : Nat
  day : Nat
deriving DecidableEq

def isLeap (year : Int) : Bool := year % 4 = 0 && (year % 100 ≠ 0 || year % 400 = 0)

def monthLength (year : Int) (month : Nat) : Nat :=
  if month = 2 then if isLeap year then 29 else 28
  else if month = 4 || month = 6 || month = 9 || month = 11 then 30
  else 31

/-- The number of a date, counted from the first day of 1970. Years are counted from March
on, so that a leap day is the last of its year. -/
def dayNumber (d : Date) : Int :=
  let year := if d.month ≤ 2 then d.year - 1 else d.year
  let era := year.fdiv 400
  let yearOfEra := year - era * 400
  let monthFromMarch : Int := (d.month + 9) % 12
  let dayOfYear := (153 * monthFromMarch + 2) / 5 + (d.day - 1)
  let dayOfEra := yearOfEra * 365 + yearOfEra / 4 - yearOfEra / 100 + dayOfYear
  era * 146097 + dayOfEra - 719468

def dateOf (number : Int) : Date :=
  let shifted := number + 719468
  let era := shifted.fdiv 146097
  let dayOfEra := shifted - era * 146097
  let yearOfEra := (dayOfEra - dayOfEra / 1460 + dayOfEra / 36524 - dayOfEra / 146096) / 365
  let dayOfYear := dayOfEra - (365 * yearOfEra + yearOfEra / 4 - yearOfEra / 100)
  let monthFromMarch := (5 * dayOfYear + 2) / 153
  let day := dayOfYear - (153 * monthFromMarch + 2) / 5 + 1
  let month := if monthFromMarch < 10 then monthFromMarch + 3 else monthFromMarch - 9
  let year := yearOfEra + era * 400 + (if month ≤ 2 then 1 else 0)
  ⟨year, month.toNat, day.toNat⟩

/-! ## Writing -/

def padded (width n : Nat) : String :=
  let digits := Nat.toDigits 10 n
  String.ofList (List.replicate (width - digits.length) '0' ++ digits)

/-- The digits of a fraction of a second, without zeros at the end. -/
def fraction (nanos : Nat) : String :=
  if nanos = 0 then ""
  else
    let digits := (padded 9 nanos).toList
    "." ++ String.ofList (digits.reverse.dropWhile (· == '0')).reverse

def offsetText (offset : Int) : String :=
  if offset = 0 then "Z"
  else
    (if offset < 0 then "-" else "+") ++ padded 2 (offset.natAbs / 60) ++ ":" ++
      padded 2 (offset.natAbs % 60)

/-- The written form, unless the year has no four digits. -/
def write? (m : Moment) : Option String :=
  let wall := m.nanos + m.offset * 60 * second
  let number := wall.fdiv day
  let rest := (wall - number * day).toNat
  let date := dateOf number
  let seconds := rest / 1000000000
  if 0 ≤ date.year && date.year ≤ 9999 then
    some (padded 4 date.year.toNat ++ "-" ++ padded 2 date.month ++ "-" ++ padded 2 date.day ++
      "T" ++ padded 2 (seconds / 3600) ++ ":" ++ padded 2 (seconds / 60 % 60) ++ ":" ++
      padded 2 (seconds % 60) ++ fraction (rest % 1000000000) ++ offsetText m.offset)
  else none

/-! ## Reading -/

/-- Exactly `count` digits and what follows them. -/
def readDigits (count : Nat) (text : List Char) : Option (Nat × List Char) :=
  let digits := text.take count
  if digits.length = count && digits.all Char.isDigit then
    some (Text.decimalValue digits, text.drop count)
  else none

def expect (mark : Char) : List Char → Option (List Char)
  | [] => none
  | c :: rest => if c = mark then some rest else none

/-- The nanoseconds after a point, if there is one; digits after the ninth are ignored. -/
def readFraction : List Char → Option (Nat × List Char)
  | '.' :: rest =>
      match rest.takeWhile Char.isDigit with
      | [] => none
      | digits =>
          let nine := (digits ++ List.replicate 9 '0').take 9
          some (Text.decimalValue nine, rest.dropWhile Char.isDigit)
  | text => some (0, text)

def readOffset : List Char → Option (Int × List Char)
  | [] => none
  | c :: rest =>
      if c = 'Z' || c = 'z' then some (0, rest)
      else if c = '+' || c = '-' then do
        let (hours, rest) ← readDigits 2 rest
        let rest ← expect ':' rest
        let (minutes, rest) ← readDigits 2 rest
        if 23 < hours || 59 < minutes then none
        let size : Int := hours * 60 + minutes
        return (if c = '-' then -size else size, rest)
      else none

/-- Reads the written form. Any one character may stand between date and time. A leap
second, which only the last minute of a month may have, counts as the end of the second
before it. -/
def read? (text : String) : Option Moment := do
  let text := text.toList
  let (year, text) ← readDigits 4 text
  let text ← expect '-' text
  let (month, text) ← readDigits 2 text
  let text ← expect '-' text
  let (dayOfMonth, text) ← readDigits 2 text
  let separator ← text.head?
  if 0x80 ≤ separator.toNat then none
  let (hour, text) ← readDigits 2 text.tail
  let text ← expect ':' text
  let (minute, text) ← readDigits 2 text
  let text ← expect ':' text
  let (seconds, text) ← readDigits 2 text
  let (nanos, text) ← readFraction text
  let (offset, text) ← readOffset text
  if !text.isEmpty then none
  if month < 1 || 12 < month || dayOfMonth < 1 || monthLength year month < dayOfMonth then none
  if 23 < hour || 59 < minute || 60 < seconds then none
  let leap := seconds = 60
  let (seconds, nanos) := if leap then (59, 999999999) else (seconds, nanos)
  let wall := dayNumber ⟨year, month, dayOfMonth⟩ * day +
    ((hour * 60 + minute) * 60 + seconds : Nat) * second + nanos
  let m : Moment := ⟨wall - offset * 60 * second, offset⟩
  if leap then
    let number := m.nanos.fdiv day
    let date := dateOf number
    if m.nanos ≠ number * day + day - 1 || date.day ≠ monthLength date.year date.month then none
  return m

end Moment

end ModuleDepot

import ModuleDepot.Json.Value
import ModuleDepot.Moment
import ModuleDepot.Width

/-!
Values of settings files that are written as one word: truth values, numbers, dates
and times. Underscores may stand between digits.
-/

namespace ModuleDepot.Toml

open Json (Value Number)

/-- A number that is no integer. No setting is one, so all of them are the same. -/
def someFraction : Value := .number ⟨false, 0, 0, false⟩

/-- A date or a time: a table, with a name in it that no setting has. -/
def momentValue (text : List Char) : Value :=
  .record [("$moment", .string (String.ofList text))]

/-! ## Numbers -/

/-- Digits without the underscores between them. -/
def digitsIn? (base : Nat) (text : List Char) : Option (List Char) :=
  let groups := text.splitOn '_'
  if groups.all fun g => !g.isEmpty && g.all fun c => (Text.digitIn? base c).isSome then
    some groups.flatten
  else none

def splitSign : List Char → Option Char × List Char
  | '+' :: rest => (some '+', rest)
  | '-' :: rest => (some '-', rest)
  | text => (none, text)

/-- The digits of a whole part, which has no zero in front. -/
def wholeDigits? (text : List Char) : Option (List Char) := do
  match ← digitsIn? 10 text with
  | '0' :: _ :: _ => none
  | digits => some digits

def fitting? (i : Int) : Option Value :=
  if Width.fitsSigned i then some (.int i) else none

/-- An integer. Other bases than ten are told by a letter after a zero. -/
def integer? : List Char → Option Value
  | '0' :: 'x' :: rest => do fitting? (← Text.numberIn? 16 (← digitsIn? 16 rest))
  | '0' :: 'o' :: rest => do fitting? (← Text.numberIn? 8 (← digitsIn? 8 rest))
  | '0' :: 'b' :: rest => do fitting? (← Text.numberIn? 2 (← digitsIn? 2 rest))
  | text => do
      let (sign, text) := splitSign text
      let size : Int := Text.decimalValue (← wholeDigits? text)
      fitting? (if sign = some '-' then -size else size)

/-- The text before a letter `e`, and the power of ten after it. -/
def cutExponent (text : List Char) : Option (List Char × Option Int) :=
  match text.dropWhile fun c => c ≠ 'e' && c ≠ 'E' with
  | [] => some (text, none)
  | _ :: power => do
      let (sign, power) := splitSign power
      let size : Int := Text.decimalValue (← digitsIn? 10 power)
      return (text.takeWhile fun c => c ≠ 'e' && c ≠ 'E',
        some (if sign = some '-' then -size else size))

/-- A number with a fraction or a power of ten. One that would be rounded to infinity is
refused, unless it is negative. -/
def fraction? (text : List Char) : Option Value := do
  let (sign, text) := splitSign text
  let (mantissa, power) ← cutExponent text
  let (whole, places) ← match mantissa.dropWhile (· ≠ '.') with
    | [] => if power.isSome then pure (← wholeDigits? mantissa, []) else none
    | _ :: places => pure (← wholeDigits? (mantissa.takeWhile (· ≠ '.')), ← digitsIn? 10 places)
  let n : Number := ⟨false, Text.decimalValue (whole ++ places),
    power.getD 0 - places.length, false⟩
  if n.isFinite || sign = some '-' then some someFraction else none

def namedNumber? (text : List Char) : Option Value :=
  match String.ofList (splitSign text).2 with
  | "inf" => some someFraction
  | "nan" => some someFraction
  | _ => none

/-! ## Dates and times -/

def afterDate? (text : List Char) : Option (List Char) := do
  let (year, text) ← Moment.readDigits 4 text
  let text ← Moment.expect '-' text
  let (month, text) ← Moment.readDigits 2 text
  let text ← Moment.expect '-' text
  let (day, text) ← Moment.readDigits 2 text
  if month < 1 || 12 < month || day < 1 || Moment.monthLength year month < day then none
  else some text

def afterTime? (text : List Char) : Option (List Char) := do
  let (hour, text) ← Moment.readDigits 2 text
  let text ← Moment.expect ':' text
  let (minute, text) ← Moment.readDigits 2 text
  let text ← Moment.expect ':' text
  let (second, text) ← Moment.readDigits 2 text
  let (_, text) ← Moment.readFraction text
  if 23 < hour || 59 < minute || 60 < second then none else some text

/-- Whether a text is a time, which may have an offset if a date stands before it. -/
def isTime (dated : Bool) (text : List Char) : Bool :=
  match afterTime? text with
  | none => false
  | some [] => true
  | some rest =>
      dated && match Moment.readOffset rest with
        | some (_, []) => true
        | _ => false

def isDate (text : List Char) : Bool := afterDate? text = some []

/-- Whether a text is a date, a time, or both with a letter `T` between them. -/
def isMoment (text : List Char) : Bool :=
  isTime false text ||
    match afterDate? text with
    | none => false
    | some [] => true
    | some (mark :: rest) => (mark = 'T' || mark = 't') && isTime true rest

def ofWord? (word : List Char) : Option Value :=
  match String.ofList word with
  | "true" => some (.bool true)
  | "false" => some (.bool false)
  | _ =>
      if isMoment word then some (momentValue word)
      else (integer? word).or <| (fraction? word).or (namedNumber? word)

end ModuleDepot.Toml

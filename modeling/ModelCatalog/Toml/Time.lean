import ModelCatalog.Text.Digits
import ModelCatalog.Toml.Reader

/-! # TOML times

    A time is a date, a date and a time of the day, or a time of the day.  With a date there may be a
    distance from universal time, too.  No record has such a field, so a time is only recognized. -/

namespace ModelCatalog.Toml

open Reader

def fixedDigits (count : Nat) : Reader Nat := do
  let digits := (← get).rest.take count
  if digits.length == count && digits.all Char.isDigit then
    return Text.decimal (← takeCount count)
  reject

/-- Takes a number of two digits in a range. -/
def twoDigits (least greatest : Nat) : Reader Nat :=
  judge (fixedDigits 2) fun n =>
    if least ≤ n ∧ n ≤ greatest then .ok n else .error .outOfRange

/-- The days of a month. -/
def daysIn (year month : Nat) : Nat :=
  if month == 2 then
    if year % 4 == 0 && (year % 100 != 0 || year % 400 == 0) then 29 else 28
  else if month == 4 || month == 6 || month == 9 || month == 11 then 30
  else 31

def date : Reader Unit := do
  let year ← fixedDigits 4
  take '-'
  commit do
    let month ← twoDigits 1 12
    take '-'
    discard (twoDigits 1 (daysIn year month))

def secondFraction : Reader Unit := do
  take '.'
  discard (takeSome Char.isDigit)

/-- Takes a time of the day.  A minute may have a leap second. -/
def timeOfDay : Reader Unit := do
  discard (twoDigits 0 23)
  take ':'
  commit do
    discard (twoDigits 0 59)
    take ':'
    discard (twoDigits 0 60)
    discard (optional secondFraction)

/-- Takes a distance from universal time. -/
def timeOffset : Reader Unit :=
  within .offset <| either (discard (takeOne fun c => c == 'Z' || c == 'z')) do
    discard (takeOne fun c => c == '+' || c == '-')
    commit do
      discard (twoDigits 0 23)
      take ':'
      discard (twoDigits 0 59)

/-- Takes the time of the day behind a date. -/
def timeBehindDate : Reader Unit := do
  discard (takeOne fun c => c == 'T' || c == 't' || c == ' ')
  timeOfDay
  discard (optional timeOffset)

/-- Takes a date, and a time of the day if it follows. -/
def dateTime : Reader Unit :=
  within .dateTime do
    date
    discard (optional timeBehindDate)

def time : Reader Unit := either dateTime (within .time timeOfDay)

end ModelCatalog.Toml

import GestaltModel.Primitives.Calendar
import Mathlib.Control.Basic

-- Times as text in the layout `time.RFC3339`.
namespace Time

-- A number with leading zeros up to the given width.
def appendInt : Nat → Nat → List Char
  | 0, n => if n = 0 then [] else Nat.toDigits 10 n
  | width + 1, n => appendInt width (n / 10) ++ [Nat.digitChar (n % 10)]

def appendYear (year : Int) : List Char :=
  if year < 0 then '-' :: appendInt 4 year.natAbs else appendInt 4 year.natAbs

-- The seconds since midnight.
def appendClock (seconds : Nat) : List Char :=
  appendInt 2 (seconds / 3600) ++ ':' :: (appendInt 2 (seconds / 60 % 60) ++
    ':' :: appendInt 2 (seconds % 60))

def appendDate (date : Date) : List Char :=
  appendYear date.year ++ '-' :: (appendInt 2 date.month ++ '-' :: appendInt 2 date.day)

-- `Time.Format` for a time in UTC.
def formatRFC3339 (t : Int) : String :=
  .ofList <| appendDate (.ofDays (t / day)) ++ 'T' :: (appendClock (t % day / second).toNat ++ ['Z'])

-- The state of a reader is the text that is left.
abbrev Reader := StateT (List Char) Option

namespace Reader

-- Exactly `width` digits.
def number (width : Nat) : Reader Nat := fun cs =>
  if width ≤ cs.length ∧ (cs.take width).all Char.isDigit then
    some (Nat.ofDigitChars 10 (cs.take width) 0, cs.drop width)
  else
    none

def literal (c : Char) : Reader Unit
  | [] => none
  | c' :: cs => if c' = c then some ((), cs) else none

-- The nanoseconds of a fraction, which may be missing. Digits after the ninth one are ignored.
def fraction : Reader Nat
  | point :: cs =>
    let digits := (cs.takeWhile Char.isDigit).take 9
    if point ∈ ['.', ','] ∧ digits ≠ [] then
      some (Nat.ofDigitChars 10 digits 0 * 10 ^ (9 - digits.length), cs.dropWhile Char.isDigit)
    else
      some (0, point :: cs)
  | [] => some (0, [])

-- The offset of a zone, which can be as large as 24 hours and 60 minutes.
def zone : Reader Int
  | [] => none
  | sign :: cs =>
    if sign = 'Z' then
      some (0, cs)
    else
      let offset : Reader Int := do
        let hours ← number 2
        literal ':'
        let minutes ← number 2
        if 24 < hours ∨ 60 < minutes then
          failure
        else if sign = '+' then
          return (60 * hours + minutes) * minute
        else if sign = '-' then
          return -((60 * hours + minutes) * minute)
        else
          failure
      offset cs

def date : Reader Date := do
  let year ← number 4
  literal '-'
  let month ← number 2
  literal '-'
  let day ← number 2
  if valid : 0 < month ∧ 0 < day ∧ day ≤ daysIn month year then
    return { year, month, day, valid }
  else
    failure

-- The seconds since midnight. The hour may have a single digit.
def clock : Reader Nat := do
  let hour ← number 2 <|> number 1
  literal ':'
  let minute ← number 2
  literal ':'
  let second ← number 2
  if hour < 24 ∧ minute < 60 ∧ second < 60 then
    return 3600 * hour + 60 * minute + second
  else
    failure

def time : Reader Int := do
  let date ← date
  literal 'T'
  let seconds ← clock
  let nanoseconds ← fraction
  let offset ← zone
  return date.toDays * day + seconds * second + nanoseconds - offset

end Reader

-- `time.Parse`, without the message of its error.
def parseRFC3339 (s : String) : Option Int :=
  match Reader.time s.toList with
  | some (t, []) => some t
  | _ => none

end Time

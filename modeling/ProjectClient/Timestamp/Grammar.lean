import ProjectClient.Text.Blank
import ProjectClient.Timestamp.Calendar

/-! The two written forms of a time: RFC 3339, which has an offset from UTC, and the naive ISO form,
which has none and allows blanks between its parts. A reader takes what it understands from the
front of the text and leaves the rest. -/
namespace ProjectClient.Timestamp

abbrev Reader := StateT (List Char) Option

namespace Reader

def decimal (digits : List Char) : Nat :=
  digits.foldl (fun value c => 10 * value + (c.toNat - '0'.toNat)) 0

/-- As many digits as there are, but at most `most`. Less than `least` of them are a failure. -/
def number (least most : Nat) : Reader Nat := fun text =>
  let digits := (text.take most).takeWhile Char.isDigit
  if least ≤ digits.length then some (decimal digits, text.drop digits.length) else none

def anyNumber : Reader Nat := fun text => number 1 text.length text

def one (p : Char → Bool) : Reader Char
  | [] => none
  | c :: rest => if p c then some (c, rest) else none

def literal (c : Char) : Reader Unit := do
  let _ ← one (· == c)

def blanks : Reader Unit := fun text => some ((), text.dropWhile Text.isBlank)

def startsWith (c : Char) : Reader Bool := fun text => some (text.head? == some c, text)

/-- A point with at least one digit, if there is a point. The digits have no effect. -/
def fraction : Reader Unit := do
  if ← startsWith '.' then
    literal '.'
    let _ ← anyNumber

def readAll? {α : Type} (reader : Reader α) (text : List Char) : Option α :=
  match reader text with
  | some (a, []) => some a
  | _ => none

end Reader

open Reader

structure Fields where
  year : Int
  month : Nat
  day : Nat
  hour : Nat
  minute : Nat
  second : Nat
deriving DecidableEq

/-- The minute that the fields name. A second 60 belongs to its minute. -/
def Fields.toMinute? (fields : Fields) : Option Minute := do
  let date ← Date.ofFields? fields.year fields.month fields.day
  let minute ← Minute.ofFields? date fields.hour fields.minute
  if fields.second ≤ 60 then some minute else none

def offset : Reader Int := do
  let sign ← one fun c => c == 'Z' || c == 'z' || c == '+' || c == '-' || c == '\u2212'
  if sign == 'Z' || sign == 'z' then
    return 0
  else
    let hours ← number 2 2
    literal ':'
    let minutes ← number 2 2
    if hours < 24 ∧ minutes < 60 then
      let magnitude : Int := hours * 60 + minutes
      return if sign == '+' then magnitude else -magnitude
    else failure

def zonedTime : Reader (Fields × Int) := do
  let year ← number 4 4
  literal '-'
  let month ← number 2 2
  literal '-'
  let day ← number 2 2
  let _ ← one fun c => c == 'T' || c == 't' || c == ' '
  let hour ← number 2 2
  literal ':'
  let minute ← number 2 2
  literal ':'
  let second ← number 2 2
  fraction
  let offset ← offset
  return (⟨year, month, day, hour, minute, second⟩, offset)

/-- A year: up to four digits, or a sign with any number of them. -/
def year : Reader Int := do
  blanks
  if ← startsWith '-' then
    literal '-'
    let magnitude ← anyNumber
    return -magnitude
  else if ← startsWith '+' then
    literal '+'
    let magnitude ← anyNumber
    return magnitude
  else
    let value ← number 1 4
    return value

def shortNumber : Reader Nat := do
  blanks
  number 1 2

def separator (c : Char) : Reader Unit := do
  blanks
  literal c

def naiveTime : Reader Fields := do
  let year ← year
  separator '-'
  let month ← shortNumber
  separator '-'
  let day ← shortNumber
  separator 'T'
  let hour ← shortNumber
  separator ':'
  let minute ← shortNumber
  separator ':'
  let second ← shortNumber
  fraction
  blanks
  return ⟨year, month, day, hour, minute, second⟩

def zoned? (text : String) : Option Minute := do
  let (fields, offset) ← zonedTime.readAll? text.toList
  let minute ← fields.toMinute?
  return minute.earlier offset

def InRange (year : Int) : Prop := -262143 ≤ year ∧ year ≤ 262142

instance (year : Int) : Decidable (InRange year) :=
  inferInstanceAs (Decidable (-262143 ≤ year ∧ year ≤ 262142))

def naive? (text : String) : Option Minute := do
  let fields ← naiveTime.readAll? text.toList
  if InRange fields.year then fields.toMinute? else none

end ProjectClient.Timestamp

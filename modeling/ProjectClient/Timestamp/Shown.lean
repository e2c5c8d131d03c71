import ProjectClient.Timestamp.Grammar
import ProjectClient.Text.Columns

/-! The text that is shown for the time of a project's last change. -/
namespace ProjectClient.Timestamp

open Text

def padded (width n : Nat) : String :=
  atRight '0' width (toString n)

/-- At least four digits, and a sign unless the year has exactly four. -/
def yearText (year : Int) : String :=
  if 0 ≤ year ∧ year ≤ 9999 then padded 4 year.toNat
  else (if year < 0 then "-" else "+") ++ padded 4 year.natAbs

def Minute.text (minute : Minute) : String :=
  let date := minute.date
  s!"{yearText date.year}-{padded 2 date.month}-{padded 2 date.day} " ++
    s!"{padded 2 (minute.ofDay / 60)}:{padded 2 (minute.ofDay % 60)}"

def parse? (text : String) : Option Minute :=
  zoned? text <|> naive? text

/-- A time in UTC if it is written in a known form, and else the text itself. -/
def shown : Option String → String
  | none => "never"
  | some text => ((parse? text).map Minute.text).getD text

end ProjectClient.Timestamp

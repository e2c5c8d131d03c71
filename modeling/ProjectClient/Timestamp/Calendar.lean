/-! The proleptic Gregorian calendar and the minutes of its days. -/
namespace ProjectClient.Timestamp

/-- Every fourth year has a leap day, but of the full centuries only every fourth. -/
def IsLeap (year : Int) : Prop :=
  4 ∣ year ∧ (100 ∣ year → 400 ∣ year)

instance (year : Int) : Decidable (IsLeap year) :=
  inferInstanceAs (Decidable (4 ∣ year ∧ (100 ∣ year → 400 ∣ year)))

def daysInMonth (year : Int) (month : Nat) : Nat :=
  if month = 2 then if IsLeap year then 29 else 28
  else if month = 4 ∨ month = 6 ∨ month = 9 ∨ month = 11 then 30
  else 31

theorem daysInMonth_pos (year : Int) (month : Nat) : 1 ≤ daysInMonth year month := by
  unfold daysInMonth
  split
  · split <;> decide
  · split <;> decide

/-- A day of the calendar. Year 0 stands before year 1. -/
@[ext] structure Date where
  year : Int
  month : Nat
  day : Nat
  month_mem : 1 ≤ month ∧ month ≤ 12
  day_mem : 1 ≤ day ∧ day ≤ daysInMonth year month
deriving DecidableEq

namespace Date

def ofFields? (year : Int) (month day : Nat) : Option Date :=
  if h : (1 ≤ month ∧ month ≤ 12) ∧ 1 ≤ day ∧ day ≤ daysInMonth year month then
    some ⟨year, month, day, h.1, h.2⟩
  else none

def next (date : Date) : Date :=
  if h : date.day < daysInMonth date.year date.month then
    { date with day := date.day + 1, day_mem := ⟨Nat.le_add_left _ _, h⟩ }
  else if h : date.month < 12 then
    { year := date.year, month := date.month + 1, day := 1,
      month_mem := ⟨Nat.le_add_left _ _, h⟩,
      day_mem := ⟨Nat.le_refl _, daysInMonth_pos _ _⟩ }
  else
    { year := date.year + 1, month := 1, day := 1, month_mem := by decide,
      day_mem := ⟨Nat.le_refl _, daysInMonth_pos _ _⟩ }

def previous (date : Date) : Date :=
  if h : 1 < date.day then
    { date with day := date.day - 1,
                day_mem := ⟨by omega, by have := date.day_mem.2; omega⟩ }
  else if h : 1 < date.month then
    { year := date.year, month := date.month - 1,
      day := daysInMonth date.year (date.month - 1),
      month_mem := ⟨by omega, by have := date.month_mem.2; omega⟩,
      day_mem := ⟨daysInMonth_pos _ _, Nat.le_refl _⟩ }
  else
    { year := date.year - 1, month := 12, day := daysInMonth (date.year - 1) 12,
      month_mem := by decide, day_mem := ⟨daysInMonth_pos _ _, Nat.le_refl _⟩ }

end Date

@[ext] structure Minute where
  date : Date
  ofDay : Nat
  ofDay_lt : ofDay < 1440
deriving DecidableEq

namespace Minute

def ofFields? (date : Date) (hour minute : Nat) : Option Minute :=
  if h : hour < 24 ∧ minute < 60 then some ⟨date, hour * 60 + minute, by omega⟩ else none

/-- The minute that lies `offset` minutes earlier. The offset is less than a day either way. -/
def earlier (minute : Minute) (offset : Int) : Minute :=
  let shifted : Int := minute.ofDay - offset
  if shifted < 0 then
    ⟨minute.date.previous, (shifted + 1440).toNat % 1440, Nat.mod_lt _ (by decide)⟩
  else if shifted < 1440 then
    ⟨minute.date, shifted.toNat % 1440, Nat.mod_lt _ (by decide)⟩
  else
    ⟨minute.date.next, (shifted - 1440).toNat % 1440, Nat.mod_lt _ (by decide)⟩

end Minute

end ProjectClient.Timestamp

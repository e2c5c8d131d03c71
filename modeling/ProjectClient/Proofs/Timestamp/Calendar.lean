import ProjectClient.Timestamp.Calendar

/-! Days and minutes counted through. The day before and the day after are the neighbours in the
count, however many days a month or a year has, so a minute is found again by subtraction. -/
namespace ProjectClient.Timestamp

/-! ## Years and months -/

def daysBeforeYear (year : Int) : Int :=
  365 * year + (year + 3) / 4 - (year + 99) / 100 + (year + 399) / 400

def daysInYear (year : Int) : Nat :=
  if IsLeap year then 366 else 365

def daysInMonths (year : Int) : Nat → Nat
  | 0 => 0
  | months + 1 => daysInMonths year months + daysInMonth year (months + 1)

theorem daysBeforeYear_succ (year : Int) :
    daysBeforeYear (year + 1) = daysBeforeYear year + daysInYear year := by
  unfold daysBeforeYear daysInYear
  by_cases leap : IsLeap year
  · rw [if_pos leap]
    unfold IsLeap at leap
    omega
  · rw [if_neg leap]
    unfold IsLeap at leap
    omega

theorem daysBeforeYear_mono {year later : Int} (h : year ≤ later) :
    daysBeforeYear year ≤ daysBeforeYear later := by
  unfold daysBeforeYear
  omega

theorem daysInMonths_twelve (year : Int) : daysInMonths year 12 = daysInYear year := by
  by_cases leap : IsLeap year
  · simp [daysInMonths, daysInMonth, daysInYear, leap]
  · simp [daysInMonths, daysInMonth, daysInYear, leap]

theorem daysInMonths_mono (year : Int) {few many : Nat} (h : few ≤ many) :
    daysInMonths year few ≤ daysInMonths year many := by
  induction h with
  | refl => exact Nat.le_refl _
  | step _ ih => exact Nat.le_trans ih (Nat.le_add_right _ _)

theorem daysInMonth_le (year : Int) (month : Nat) : daysInMonth year month ≤ 31 := by
  unfold daysInMonth
  split
  · split <;> decide
  · split <;> decide

/-! ## Days -/

namespace Date

def count (date : Date) : Int :=
  daysBeforeYear date.year + daysInMonths date.year (date.month - 1) + (date.day - 1 : Nat)

theorem month_lt (date : Date) : date.month < 100 := by
  have month := date.month_mem
  omega

theorem day_lt (date : Date) : date.day < 100 := by
  have day := date.day_mem
  have most := daysInMonth_le date.year date.month
  omega

theorem months_of_month (date : Date) :
    daysInMonths date.year date.month =
      daysInMonths date.year (date.month - 1) + daysInMonth date.year date.month := by
  obtain ⟨month, same⟩ : ∃ month, date.month = month + 1 :=
    ⟨date.month - 1, by have := date.month_mem.1; omega⟩
  rw [same]
  rfl

theorem count_next (date : Date) : date.next.count = date.count + 1 := by
  have months := date.months_of_month
  have first := date.day_mem.1
  have last := date.day_mem.2
  have month := date.month_mem
  unfold next
  by_cases more : date.day < daysInMonth date.year date.month
  · rw [dif_pos more]
    simp only [count]
    omega
  rw [dif_neg more]
  by_cases early : date.month < 12
  · rw [dif_pos early]
    simp only [count, Nat.add_sub_cancel, months]
    omega
  -- After the last day of December all months of the year are counted.
  · rw [dif_neg early]
    have december : date.month = 12 := by omega
    rw [december] at months more last
    rw [daysInMonths_twelve] at months
    have january : daysInMonths (date.year + 1) (1 - 1) = 0 := rfl
    simp only [count, daysBeforeYear_succ, december, january]
    omega

theorem count_previous (date : Date) : date.previous.count = date.count - 1 := by
  have first := date.day_mem.1
  have month := date.month_mem
  unfold previous
  by_cases more : 1 < date.day
  · rw [dif_pos more]
    simp only [count]
    omega
  rw [dif_neg more]
  by_cases late : 1 < date.month
  · rw [dif_pos late]
    obtain ⟨month, same⟩ : ∃ month, date.month = month + 2 := ⟨date.month - 2, by omega⟩
    have months : daysInMonths date.year (month + 1) =
        daysInMonths date.year month + daysInMonth date.year (month + 1) := rfl
    have pos := daysInMonth_pos date.year (month + 1)
    simp only [count, same, Nat.add_sub_cancel, Nat.reduceSubDiff, months]
    omega
  · rw [dif_neg late]
    have january : date.month = 1 := by omega
    have months : daysInMonths (date.year - 1) 12 =
        daysInMonths (date.year - 1) 11 + daysInMonth (date.year - 1) 12 := rfl
    have pos := daysInMonth_pos (date.year - 1) 12
    have years := daysBeforeYear_succ (date.year - 1)
    rw [Int.sub_add_cancel] at years
    rw [daysInMonths_twelve] at months
    have none : daysInMonths date.year (1 - 1) = 0 := rfl
    simp only [count, january, none, years, Nat.reduceSub]
    omega

theorem year_next (date : Date) :
    date.year ≤ date.next.year ∧ date.next.year ≤ date.year + 1 := by
  unfold next
  split
  · exact ⟨Int.le_refl _, Int.le_add_one (Int.le_refl _)⟩
  split
  · exact ⟨Int.le_refl _, Int.le_add_one (Int.le_refl _)⟩
  · exact ⟨Int.le_add_one (Int.le_refl _), Int.le_refl _⟩

theorem year_previous (date : Date) :
    date.year - 1 ≤ date.previous.year ∧ date.previous.year ≤ date.year := by
  unfold previous
  split
  · exact ⟨Int.sub_le_self _ (by decide), Int.le_refl _⟩
  split
  · exact ⟨Int.sub_le_self _ (by decide), Int.le_refl _⟩
  · exact ⟨Int.le_refl _, Int.sub_le_self _ (by decide)⟩

theorem count_mem_year (date : Date) :
    daysBeforeYear date.year ≤ date.count ∧ date.count < daysBeforeYear (date.year + 1) := by
  have months := date.months_of_month
  have whole := daysInMonths_mono date.year date.month_mem.2
  rw [daysInMonths_twelve] at whole
  have first := date.day_mem.1
  have last := date.day_mem.2
  rw [daysBeforeYear_succ]
  unfold count
  omega

theorem count_lt_of_year {first second : Date} (before : first.year < second.year) :
    first.count < second.count := by
  have inFirst := first.count_mem_year
  have inSecond := second.count_mem_year
  have apart := daysBeforeYear_mono before
  omega

theorem count_lt_of_month {first second : Date} (year : first.year = second.year)
    (before : first.month < second.month) : first.count < second.count := by
  have months := first.months_of_month
  have apart := daysInMonths_mono first.year (Nat.le_sub_one_of_lt before)
  have last := first.day_mem.2
  have day := first.day_mem.1
  unfold count
  rw [← year]
  omega

theorem count_injective {first second : Date} (same : first.count = second.count) :
    first = second := by
  have year : first.year = second.year := by
    rcases Int.lt_trichotomy first.year second.year with before | year | behind
    · exact absurd same (Int.ne_of_lt (count_lt_of_year before))
    · exact year
    · exact absurd same (Int.ne_of_gt (count_lt_of_year behind))
  have month : first.month = second.month := by
    rcases Nat.lt_trichotomy first.month second.month with before | month | behind
    · exact absurd same (Int.ne_of_lt (count_lt_of_month year before))
    · exact month
    · exact absurd same (Int.ne_of_gt (count_lt_of_month year.symm behind))
  have day : first.day = second.day := by
    have inFirst := first.day_mem.1
    have inSecond := second.day_mem.1
    unfold count at same
    rw [year, month] at same
    omega
  exact Date.ext year month day

end Date

/-! ## Minutes -/

namespace Minute

def count (minute : Minute) : Int :=
  minute.date.count * 1440 + minute.ofDay

theorem count_earlier (minute : Minute) {offset : Int} (least : -1440 < offset)
    (most : offset < 1440) : (minute.earlier offset).count = minute.count - offset := by
  have small := minute.ofDay_lt
  unfold earlier
  dsimp only
  split
  · simp only [count, Date.count_previous]
    omega
  split
  · simp only [count]
    omega
  · simp only [count, Date.count_next]
    omega

theorem year_earlier (minute : Minute) (offset : Int) :
    minute.date.year - 1 ≤ (minute.earlier offset).date.year ∧
      (minute.earlier offset).date.year ≤ minute.date.year + 1 := by
  have next := minute.date.year_next
  have previous := minute.date.year_previous
  unfold earlier
  dsimp only
  split
  · dsimp only
    omega
  split
  · dsimp only
    omega
  · dsimp only
    omega

theorem count_injective {first second : Minute} (same : first.count = second.count) :
    first = second := by
  have small := first.ofDay_lt
  have small' := second.ofDay_lt
  unfold count at same
  have ofDay : first.ofDay = second.ofDay := by omega
  have date : first.date.count = second.date.count := by omega
  exact Minute.ext (Date.count_injective date) ofDay

theorem earlier_zero (minute : Minute) : minute.earlier 0 = minute :=
  count_injective (by rw [minute.count_earlier (by decide) (by decide), Int.sub_zero])

end Minute

end ProjectClient.Timestamp

import ProjectClient.Proofs.Timestamp.Naive
import ProjectClient.Proofs.Timestamp.Zoned

/-! Whatever the form and the zone of a time, its minute in UTC is shown. -/
namespace ProjectClient.Timestamp

/-! ## Minutes as they are shown -/

/-- Four digits, and a sign in front of a year that four digits alone do not name. -/
def yearDigits (year : Int) : List Char :=
  if year < 0 then '-' :: digits 4 year.natAbs
  else if 9999 < year then '+' :: digits 5 year.toNat
  else digits 4 year.toNat

def Minute.chars (minute : Minute) : List Char :=
  yearDigits minute.date.year ++ '-' :: digits 2 minute.date.month ++
    '-' :: digits 2 minute.date.day ++ ' ' :: digits 2 (minute.ofDay / 60) ++
    ':' :: digits 2 (minute.ofDay % 60)

/-- The years that have a minute less than a day from a year with four digits. -/
def IsNear (year : Int) : Prop :=
  -1 ≤ year ∧ year ≤ 10000

theorem toList_yearText {year : Int} (near : IsNear year) :
    (yearText year).toList = yearDigits year := by
  unfold yearText yearDigits
  by_cases ordinary : 0 ≤ year ∧ year ≤ 9999
  · have small : year.toNat < 10 ^ 4 := by omega
    rw [if_pos ordinary, if_neg (by omega), if_neg (by omega), toList_padded (by decide) small]
  -- Of the near years only the two outermost have another width.
  · unfold IsNear at near
    rcases (by omega : year = -1 ∨ year = 10000) with rfl | rfl <;> decide +kernel

theorem Minute.text_eq (minute : Minute) (near : IsNear minute.date.year) :
    minute.text = String.ofList minute.chars := by
  have hour : minute.ofDay / 60 < 10 ^ 2 := by
    have small := minute.ofDay_lt
    omega
  have ofHour : minute.ofDay % 60 < 10 ^ 2 := Nat.lt_trans (Nat.mod_lt _ (by decide)) (by decide)
  have two : 0 < 2 := by decide
  have plain (text : String) : toString text = text := rfl
  apply String.toList_inj.1
  unfold text chars
  simp [String.toList_append, plain, toList_yearText near,
    toList_padded two minute.date.month_lt, toList_padded two minute.date.day_lt,
    toList_padded two hour, toList_padded two ofHour]

/-! ## Times of RFC 3339 -/

namespace Rfc3339

variable (time : Rfc3339)

theorem shown_text :
    shown (some time.text) = (time.clock.earlier time.zone.offset).text := by
  rw [shown, parse?, time.zoned?_text]
  rfl

theorem count_eq_utc_iff (minute : Minute) :
    minute.count = time.utc ↔ minute = time.clock.earlier time.zone.offset := by
  obtain ⟨least, most⟩ := time.zone.offset_mem
  have same : (time.clock.earlier time.zone.offset).count = time.utc :=
    time.clock.count_earlier least most
  rw [← same]
  exact ⟨Minute.count_injective, congrArg Minute.count⟩

theorem isNear_utc : IsNear (time.clock.earlier time.zone.offset).date.year := by
  have year := time.year_mem
  have shifted := time.clock.year_earlier time.zone.offset
  have same : time.clock.date = time.date := rfl
  rw [same] at shifted
  unfold IsNear
  omega

end Rfc3339

/-! ## Naive times -/

theorem exists_rfc3339 {fields : Fields} {minute : Minute}
    (exist : fields.toMinute? = some minute) (first : 0 ≤ fields.year) (last : fields.year ≤ 9999) :
    ∃ time : Rfc3339, time.fields = fields ∧ time.zone = .utc 'Z' (by decide) := by
  have isTime := fields.isSome_toMinute?_iff.1 (Option.isSome_of_eq_some exist)
  exact ⟨{
    date := ⟨fields.year, fields.month, fields.day, isTime.month_mem, isTime.day_mem⟩
    year_mem := ⟨first, last⟩
    hour := fields.hour
    minute := fields.minute
    second := fields.second
    hour_lt := isTime.hour_lt
    minute_lt := isTime.minute_lt
    second_le := isTime.second_le
    between := 'T'
    between_mem := by decide
    fraction := []
    isFraction := .none
    zone := .utc 'Z' (by decide) }, rfl, rfl⟩

namespace Naive

variable (naive : Naive)

theorem readAll?_text : naiveTime.readAll? naive.text.toList = some naive.fields := by
  rw [text, String.toList_ofList]
  exact Reader.readAll?_eq_some.2 (naiveTime_chars naive)

theorem naive?_text :
    naive? naive.text = if InRange naive.fields.year then naive.fields.toMinute? else none := by
  rw [naive?, naive.readAll?_text]
  rfl

theorem shown_text {minute : Minute} (accepted : naive? naive.text = some minute) :
    shown (some naive.text) = minute.text := by
  rw [shown, parse?, naive.zoned?_text, accepted]
  rfl

end Naive

theorem exists_text_eq {text : String} (accepted : (naive? text).isSome) :
    ∃ naive : Naive, naive.text = text := by
  rw [naive?] at accepted
  cases read : naiveTime.readAll? text.toList with
  | none =>
    rw [read] at accepted
    cases accepted
  | some fields =>
    obtain ⟨naive, -, same⟩ := exists_naive (Reader.readAll?_eq_some.1 read)
    refine ⟨naive, ?_⟩
    rw [Naive.text, same, String.ofList_toList]

/-- A time of RFC 3339 is shown as the minute in UTC that is found by subtracting the offset from
the minutes on the clock, whatever its second is. So texts of the same minute in UTC are shown
alike, and a naive text like those that name the same in UTC. -/
theorem shown_in_utc :
    (∀ time : Rfc3339, ∃ minute : Minute,
      (∀ other : Minute, other.count = time.utc ↔ other = minute) ∧ IsNear minute.date.year ∧
        shown (some time.text) = String.ofList minute.chars) ∧
    (∀ first second : Rfc3339, first.utc = second.utc →
      shown (some first.text) = shown (some second.text)) ∧
    (∀ text : String, (naive? text).isSome → ∃ naive : Naive, naive.text = text) ∧
    (∀ naive : Naive, (naive? naive.text).isSome →
      0 ≤ naive.fields.year → naive.fields.year ≤ 9999 →
        (∃ time : Rfc3339, time.fields = naive.fields ∧ time.zone = .utc 'Z' (by decide)) ∧
        ∀ time : Rfc3339, time.fields = naive.fields → time.zone.offset = 0 →
          shown (some naive.text) = shown (some time.text)) := by
  refine ⟨fun time => ?_, fun first second same => ?_, fun text => exists_text_eq, ?_⟩
  · refine ⟨time.clock.earlier time.zone.offset, time.count_eq_utc_iff, time.isNear_utc, ?_⟩
    rw [time.shown_text, Minute.text_eq _ time.isNear_utc]
  · rw [first.shown_text, second.shown_text]
    have minute := (second.count_eq_utc_iff _).2 rfl
    rw [← same, first.count_eq_utc_iff] at minute
    rw [minute]
  · intro naive accepted first last
    obtain ⟨minute, accepted⟩ := Option.isSome_iff_exists.1 accepted
    have exist := accepted
    rw [naive.naive?_text, Option.ite_none_right_eq_some] at exist
    refine ⟨exists_rfc3339 exist.2 first last, fun time same utc => ?_⟩
    have clock : time.clock = minute := by
      rw [← same, time.toMinute?_fields] at exist
      exact Option.some.inj exist.2
    rw [naive.shown_text accepted, time.shown_text, utc, Minute.earlier_zero, clock]

/-- In a leap second the clocks of the far east show the first hour of year 0 when it is still the
year before in UTC. A naive text names a leap day with as few digits as it can. -/
theorem shown_in_utc_of_bounds :
    let east : Rfc3339 := {
      date := ⟨0, 1, 1, by decide, by decide⟩, year_mem := by decide
      hour := 0, minute := 30, second := 60
      hour_lt := by decide, minute_lt := by decide, second_le := by decide
      between := 't', between_mem := by decide
      fraction := ['.', '2', '5'], isFraction := .some ⟨by simp, by simp⟩
      zone := .numeric '+' 23 59 (by decide) (by omega) (by omega) }
    let time : Rfc3339 := {
      date := ⟨12, 2, 29, by decide, by decide⟩, year_mem := by decide
      hour := 7, minute := 5, second := 9
      hour_lt := by decide, minute_lt := by decide, second_le := by decide
      between := ' ', between_mem := by decide
      fraction := [], isFraction := .none
      zone := .utc 'z' (by decide) }
    let text := " 12 -2-29T 7:5:9"
    east.text = "0000-01-01t00:30:60.25+23:59" ∧
      shown (some east.text) = "-0001-12-31 00:31" ∧
      (naive? text).isSome ∧ time.text = "0012-02-29 07:05:09z" ∧
      shown (some text) = shown (some time.text) := by
  intro east time text
  obtain ⟨inUtc, -, exist, alike⟩ := shown_in_utc
  have accepted : (naive? text).isSome := by decide +kernel
  refine ⟨by decide +kernel, ?_, accepted, by decide +kernel, ?_⟩
  · let lastNight : Minute := ⟨⟨-1, 12, 31, by decide, by decide⟩, 31, by decide⟩
    obtain ⟨minute, unique, -, isShown⟩ := inUtc east
    obtain rfl : lastNight = minute := (unique lastNight).1 (by decide +kernel)
    rw [isShown]
    decide +kernel
  · obtain ⟨naive, same⟩ := exist text accepted
    have read := naive.readAll?_text
    rw [same] at read
    have fields : naiveTime.readAll? text.toList = some time.fields := by decide +kernel
    have named : time.fields = naive.fields := Option.some.inj (fields.symm.trans read)
    rw [← same] at accepted ⊢
    have bounds : 0 ≤ time.fields.year ∧ time.fields.year ≤ 9999 := by decide
    rw [named] at bounds
    exact (alike naive accepted bounds.1 bounds.2).2 time named rfl

end ProjectClient.Timestamp

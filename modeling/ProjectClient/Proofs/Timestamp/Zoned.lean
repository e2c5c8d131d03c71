import ProjectClient.Proofs.Timestamp.Calendar
import ProjectClient.Proofs.Timestamp.Digits

/-! Texts in the form of RFC 3339 are read as the times that they were written for, and no other
texts are read in this form. -/
namespace ProjectClient.Timestamp

structure Fields.IsTime (fields : Fields) : Prop where
  month_mem : 1 ≤ fields.month ∧ fields.month ≤ 12
  day_mem : 1 ≤ fields.day ∧ fields.day ≤ daysInMonth fields.year fields.month
  hour_lt : fields.hour < 24
  minute_lt : fields.minute < 60
  /-- There are leap seconds. -/
  second_le : fields.second ≤ 60

theorem Fields.isSome_toMinute?_iff (fields : Fields) :
    fields.toMinute?.isSome ↔ fields.IsTime := by
  constructor
  · intro exist
    obtain ⟨minute, exist⟩ := Option.isSome_iff_exists.1 exist
    simp only [toMinute?, Date.ofFields?, Minute.ofFields?, Option.bind_eq_bind,
      Option.bind_eq_some_iff, Option.dite_none_right_eq_some,
      Option.ite_none_right_eq_some] at exist
    obtain ⟨-, ⟨day, -⟩, -, ⟨clock, -⟩, second, -⟩ := exist
    exact ⟨day.1, day.2, clock.1, clock.2, second⟩
  · rintro ⟨month, day, hour, minute, second⟩
    simp only [toMinute?, Date.ofFields?, Minute.ofFields?, Option.bind_eq_bind,
      dif_pos (And.intro month day), dif_pos (And.intro hour minute), Option.bind_some,
      if_pos second, Option.isSome_some]

inductive Zone where
  | utc (mark : Char) (mark_mem : mark ∈ ['Z', 'z'])
  /-- The last sign is the minus of typographers. -/
  | numeric (sign : Char) (hours minutes : Nat) (sign_mem : sign ∈ ['+', '-', '\u2212'])
      (hours_lt : hours < 24) (minutes_lt : minutes < 60)

namespace Zone

def offset : Zone → Int
  | utc .. => 0
  | numeric sign hours minutes .. =>
    if sign = '+' then hours * 60 + minutes else -(hours * 60 + minutes)

def text : Zone → List Char
  | utc mark _ => [mark]
  | numeric sign hours minutes .. => sign :: digits 2 hours ++ ':' :: digits 2 minutes

theorem offset_mem (zone : Zone) : -1440 < zone.offset ∧ zone.offset < 1440 := by
  cases zone with
  | utc mark mark_mem =>
    simp only [offset]
    decide
  | numeric sign hours minutes sign_mem hours_lt minutes_lt =>
    simp only [offset]
    split <;> omega

theorem offset_text (zone : Zone) : Timestamp.offset zone.text = some (zone.offset, []) := by
  unfold Timestamp.offset
  cases zone with
  | utc mark mark_mem =>
    simp only [List.mem_cons, List.not_mem_nil, or_false] at mark_mem
    rcases mark_mem with rfl | rfl <;> rfl
  | numeric sign hours minutes sign_mem hours_lt minutes_lt =>
    simp only [List.mem_cons, List.not_mem_nil, or_false] at sign_mem
    have isSign : (sign == 'Z' || sign == 'z' || sign == '+' || sign == '-' ||
        sign == '\u2212') = true := by
      rcases sign_mem with rfl | rfl | rfl <;> decide
    have noMark : (sign == 'Z' || sign == 'z') = false := by
      rcases sign_mem with rfl | rfl | rfl <;> decide
    have hours_small : hours < 10 ^ 2 := Nat.lt_trans hours_lt (by decide)
    have minutes_small : minutes < 10 ^ 2 := Nat.lt_trans minutes_lt (by decide)
    have last := number_digits minutes_small []
    rw [List.append_nil] at last
    rw [text, List.cons_append, Reader.bind_of_some (Reader.one_eq_some.2 ⟨rfl, isSign⟩), noMark,
      if_neg Bool.false_ne_true, Reader.bind_of_some (number_digits hours_small _),
      Reader.bind_of_some (Reader.literal_cons ..), Reader.bind_of_some last,
      if_pos ⟨hours_lt, minutes_lt⟩]
    simp only [beq_iff_eq]
    rfl

theorem noDigit_text (zone : Zone) : NoDigit zone.text ∧ zone.text.head? ≠ some '.' := by
  cases zone with
  | utc mark mark_mem =>
    simp only [List.mem_cons, List.not_mem_nil, or_false] at mark_mem
    rcases mark_mem with rfl | rfl <;> simp [text, NoDigit]
  | numeric sign hours minutes sign_mem =>
    simp only [List.mem_cons, List.not_mem_nil, or_false] at sign_mem
    rcases sign_mem with rfl | rfl | rfl <;> simp [text, NoDigit]

end Zone

theorem exists_zone {text : List Char} {offset : Int}
    (read : Timestamp.offset text = some (offset, [])) :
    ∃ zone : Zone, zone.text = text ∧ zone.offset = offset := by
  obtain ⟨sign, between, took, numeric⟩ := Reader.bind_eq_some.1 read
  obtain ⟨rfl, mark⟩ := Reader.one_eq_some.1 took
  simp only [Bool.or_eq_true, beq_iff_eq] at mark
  by_cases utc : sign == 'Z' || sign == 'z'
  · rw [if_pos utc] at numeric
    obtain ⟨rfl, rfl⟩ := Reader.pure_eq_some.1 numeric
    exact ⟨.utc sign (by simpa using utc), rfl, rfl⟩
  · rw [if_neg utc] at numeric
    obtain ⟨hours, _, read₁, numeric⟩ := Reader.bind_eq_some.1 numeric
    obtain ⟨_, _, colon, numeric⟩ := Reader.bind_eq_some.1 numeric
    obtain ⟨minutes, _, read₂, numeric⟩ := Reader.bind_eq_some.1 numeric
    split at numeric
    · rename_i small
      obtain ⟨rfl, rfl⟩ := Reader.pure_eq_some.1 numeric
      obtain ⟨rfl, -⟩ := number_eq_some_iff.1 read₁
      rw [Reader.literal_eq_some] at colon
      subst colon
      obtain ⟨rfl, -⟩ := number_eq_some_iff.1 read₂
      have sign_mem : sign ∈ ['+', '-', '\u2212'] := by
        simp only [Bool.or_eq_true, beq_iff_eq] at utc
        simp only [List.mem_cons, List.not_mem_nil, or_false]
        tauto
      refine ⟨.numeric sign hours minutes sign_mem small.1 small.2, ?_, ?_⟩
      · rw [Zone.text, List.append_nil]
        rfl
      · simp only [Zone.offset, beq_iff_eq]
    · cases numeric

/-- A time of a year with four digits, as RFC 3339 writes it. -/
structure Rfc3339 where
  date : Date
  year_mem : 0 ≤ date.year ∧ date.year ≤ 9999
  hour : Nat
  minute : Nat
  second : Nat
  hour_lt : hour < 24
  minute_lt : minute < 60
  second_le : second ≤ 60
  between : Char
  between_mem : between ∈ ['T', 't', ' ']
  fraction : List Char
  isFraction : IsFraction fraction
  zone : Zone

namespace Rfc3339

variable (time : Rfc3339)

def chars : List Char :=
  digits 4 time.date.year.toNat ++ '-' :: digits 2 time.date.month ++
    '-' :: digits 2 time.date.day ++ time.between :: digits 2 time.hour ++
    ':' :: digits 2 time.minute ++ ':' :: digits 2 time.second ++ time.fraction ++ time.zone.text

def text : String :=
  String.ofList time.chars

def fields : Fields where
  year := time.date.year
  month := time.date.month
  day := time.date.day
  hour := time.hour
  minute := time.minute
  second := time.second

def clock : Minute where
  date := time.date
  ofDay := time.hour * 60 + time.minute
  ofDay_lt := by
    have hour := time.hour_lt
    have minute := time.minute_lt
    omega

def utc : Int :=
  time.clock.count - time.zone.offset

theorem toMinute?_fields : time.fields.toMinute? = some time.clock := by
  have date : Date.ofFields? time.date.year time.date.month time.date.day = some time.date :=
    dif_pos ⟨time.date.month_mem, time.date.day_mem⟩
  have minute : Minute.ofFields? time.date time.hour time.minute = some time.clock :=
    dif_pos ⟨time.hour_lt, time.minute_lt⟩
  simp only [Fields.toMinute?, fields, date, minute, Option.bind_eq_bind, Option.bind_some]
  exact if_pos time.second_le

theorem zonedTime_chars : zonedTime time.chars = some ((time.fields, time.zone.offset), []) := by
  have year : time.date.year.toNat < 10 ^ 4 := by
    have year := time.year_mem
    omega
  have hour : time.hour < 10 ^ 2 := Nat.lt_trans time.hour_lt (by decide)
  have minute : time.minute < 10 ^ 2 := Nat.lt_trans time.minute_lt (by decide)
  have second : time.second < 10 ^ 2 := Nat.lt_of_le_of_lt time.second_le (by decide)
  have between : (time.between == 'T' || time.between == 't' || time.between == ' ') = true := by
    simpa [or_assoc] using time.between_mem
  obtain ⟨noDigit, noPoint⟩ := time.zone.noDigit_text
  rw [chars, zonedTime]
  simp only [List.append_assoc, List.cons_append]
  rw [Reader.bind_of_some (number_digits year _), Reader.bind_of_some (Reader.literal_cons ..),
    Reader.bind_of_some (number_digits time.date.month_lt _), Reader.bind_of_some (Reader.literal_cons ..),
    Reader.bind_of_some (number_digits time.date.day_lt _),
    Reader.bind_of_some (Reader.one_eq_some.2 ⟨rfl, between⟩),
    Reader.bind_of_some (number_digits hour _), Reader.bind_of_some (Reader.literal_cons ..),
    Reader.bind_of_some (number_digits minute _), Reader.bind_of_some (Reader.literal_cons ..),
    Reader.bind_of_some (number_digits second _),
    Reader.bind_of_some (Reader.fraction_of_isFraction time.isFraction noDigit noPoint),
    Reader.bind_of_some time.zone.offset_text]
  have same : (time.date.year.toNat : Int) = time.date.year := Int.toNat_of_nonneg time.year_mem.1
  rw [same]
  rfl

theorem zoned?_text : zoned? time.text = some (time.clock.earlier time.zone.offset) := by
  have read : zonedTime.readAll? time.text.toList = some (time.fields, time.zone.offset) := by
    rw [text, String.toList_ofList]
    exact Reader.readAll?_eq_some.2 time.zonedTime_chars
  simp only [zoned?, read, Option.bind_eq_bind, Option.bind_some, time.toMinute?_fields]
  rfl

end Rfc3339

theorem exists_rfc3339_of_zonedTime {text : List Char} {fields : Fields} {offset : Int}
    (read : zonedTime text = some ((fields, offset), [])) (isTime : fields.IsTime) :
    ∃ time : Rfc3339, time.chars = text ∧ time.fields = fields ∧ time.zone.offset = offset := by
  obtain ⟨year, _, year_read, read⟩ := Reader.bind_eq_some.1 read
  obtain ⟨_, _, hyphen₁, read⟩ := Reader.bind_eq_some.1 read
  obtain ⟨month, _, month_read, read⟩ := Reader.bind_eq_some.1 read
  obtain ⟨_, _, hyphen₂, read⟩ := Reader.bind_eq_some.1 read
  obtain ⟨day, _, day_read, read⟩ := Reader.bind_eq_some.1 read
  obtain ⟨between, _, between_read, read⟩ := Reader.bind_eq_some.1 read
  obtain ⟨hour, _, hour_read, read⟩ := Reader.bind_eq_some.1 read
  obtain ⟨_, _, colon₁, read⟩ := Reader.bind_eq_some.1 read
  obtain ⟨minute, _, minute_read, read⟩ := Reader.bind_eq_some.1 read
  obtain ⟨_, _, colon₂, read⟩ := Reader.bind_eq_some.1 read
  obtain ⟨second, _, second_read, read⟩ := Reader.bind_eq_some.1 read
  obtain ⟨_, _, fraction_read, read⟩ := Reader.bind_eq_some.1 read
  obtain ⟨offset, _, zone_read, read⟩ := Reader.bind_eq_some.1 read
  obtain ⟨same, rfl⟩ := Reader.pure_eq_some.1 read
  obtain ⟨rfl, rfl⟩ := Prod.mk.inj same
  rw [Reader.literal_eq_some] at hyphen₁ hyphen₂ colon₁ colon₂
  obtain ⟨rfl, year_lt⟩ := number_eq_some_iff.1 year_read
  subst hyphen₁
  obtain ⟨rfl, -⟩ := number_eq_some_iff.1 month_read
  subst hyphen₂
  obtain ⟨rfl, -⟩ := number_eq_some_iff.1 day_read
  obtain ⟨rfl, mark⟩ := Reader.one_eq_some.1 between_read
  obtain ⟨rfl, -⟩ := number_eq_some_iff.1 hour_read
  subst colon₁
  obtain ⟨rfl, -⟩ := number_eq_some_iff.1 minute_read
  subst colon₂
  obtain ⟨rfl, -⟩ := number_eq_some_iff.1 second_read
  obtain ⟨piece, rfl, isFraction⟩ := Reader.isFraction_of_fraction fraction_read
  obtain ⟨zone, rfl, rfl⟩ := exists_zone zone_read
  have year_le : (year : Int) ≤ 9999 := by omega
  let time : Rfc3339 := {
    date := ⟨year, month, day, isTime.month_mem, isTime.day_mem⟩
    year_mem := ⟨Int.natCast_nonneg year, year_le⟩
    hour, minute, second
    hour_lt := isTime.hour_lt
    minute_lt := isTime.minute_lt
    second_le := isTime.second_le
    between
    between_mem := by simpa [or_assoc] using mark
    fraction := piece
    isFraction, zone }
  refine ⟨time, ?_, rfl, rfl⟩
  simp only [Rfc3339.chars, time, Int.toNat_natCast, List.append_assoc, List.cons_append]

end ProjectClient.Timestamp

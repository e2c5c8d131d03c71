import ProjectClient.Proofs.Timestamp.Reads

/-! Texts in the naive form. They are read as what they are made of, and nothing else is read. -/
namespace ProjectClient.Timestamp

open Text Reader

/-- Up to four digits, or a sign and any number of them. -/
inductive IsYear : List Char → Int → Prop
  | unsigned {digits : List Char} (isDigits : IsDigits digits) (few : digits.length ≤ 4) :
    IsYear digits (decimal digits)
  | negative {digits : List Char} (isDigits : IsDigits digits) :
    IsYear ('-' :: digits) (-decimal digits)
  | positive {digits : List Char} (isDigits : IsDigits digits) :
    IsYear ('+' :: digits) (decimal digits)

inductive IsPart (mark : Char) : List Char → Nat → Prop
  | intro {before behind digits : List Char} (before_blank : AllBlank before)
    (behind_blank : AllBlank behind) (isDigits : IsDigits digits) (few : digits.length ≤ 2) :
    IsPart mark (before ++ mark :: behind ++ digits) (decimal digits)

structure Naive where
  fields : Fields
  front : List Char
  year : List Char
  month : List Char
  day : List Char
  hour : List Char
  minute : List Char
  second : List Char
  fraction : List Char
  back : List Char
  front_blank : AllBlank front
  isYear : IsYear year fields.year
  isMonth : IsPart '-' month fields.month
  isDay : IsPart '-' day fields.day
  isHour : IsPart 'T' hour fields.hour
  isMinute : IsPart ':' minute fields.minute
  isSecond : IsPart ':' second fields.second
  isFraction : IsFraction fraction
  back_blank : AllBlank back

def Naive.chars (naive : Naive) : List Char :=
  naive.front ++ naive.year ++ naive.month ++ naive.day ++ naive.hour ++ naive.minute ++
    naive.second ++ naive.fraction ++ naive.back

def Naive.text (naive : Naive) : String :=
  String.ofList naive.chars

/-! ## Blanks and digits -/

theorem not_isDigit_of_isBlank {c : Char} (blank : isBlank c) : ¬ c.isDigit := by
  simp only [isBlank, Char.isDigit, Bool.or_eq_true, Bool.and_eq_true, decide_eq_true_eq,
    beq_iff_eq, ge_iff_le, UInt32.le_iff_toNat_le, ← UInt32.toNat_inj,
    UInt32.reduceToNat] at blank ⊢
  have zero : '0'.val.toNat = 48 := rfl
  have nine : '9'.val.toNat = 57 := rfl
  omega

variable {text rest piece front : List Char} {mark : Char} {n : Nat}

theorem AllBlank.noDigit (blank : AllBlank front) (noDigit : NoDigit rest) :
    NoDigit (front ++ rest) := by
  cases front with
  | nil => exact noDigit
  | cons c front =>
    intro first same
    cases same
    exact not_isDigit_of_isBlank (blank c List.mem_cons_self)

theorem IsDigits.noBlank {digits : List Char} (isDigits : IsDigits digits) :
    NoBlank (digits ++ rest) := by
  cases digits with
  | nil => exact absurd rfl isDigits.1
  | cons c digits =>
    intro first same
    cases same
    exact fun blank => not_isDigit_of_isBlank blank (isDigits.2 c List.mem_cons_self)

theorem IsDigits.head?_ne {digits : List Char} (isDigits : IsDigits digits) (c : Char)
    (noDigit : ¬ c.isDigit) : (digits ++ rest).head? ≠ some c := by
  cases digits with
  | nil => exact absurd rfl isDigits.1
  | cons first digits =>
    intro same
    cases same
    exact noDigit (isDigits.2 _ List.mem_cons_self)

theorem IsPart.noDigit (isPart : IsPart mark piece n) (noDigit : ¬ mark.isDigit) :
    NoDigit (piece ++ rest) := by
  cases isPart with
  | intro before_blank =>
    simp only [List.append_assoc, List.cons_append]
    refine before_blank.noDigit ?_
    intro first same
    cases same
    exact noDigit

/-! ## Reading -/

theorem blanks_append (blank : AllBlank front) (stops : NoBlank rest) :
    blanks (front ++ rest) = some ((), rest) :=
  blanks_eq_some.2 ⟨front, rfl, blank, stops⟩

theorem separator_eq_some {u : Unit} (visible : ¬ isBlank mark) :
    separator mark text = some (u, rest) ↔
      ∃ before, text = before ++ mark :: rest ∧ AllBlank before := by
  unfold separator
  simp only [bind_eq_some, blanks_eq_some, literal_eq_some]
  constructor
  · rintro ⟨_, _, ⟨before, rfl, blank, -⟩, rfl⟩
    exact ⟨before, rfl, blank⟩
  · rintro ⟨before, rfl, blank⟩
    refine ⟨(), _, ⟨before, rfl, blank, ?_⟩, rfl⟩
    intro first same
    cases same
    exact visible

theorem shortNumber_eq_some : shortNumber text = some (n, rest) ↔
    ∃ behind digits, text = behind ++ (digits ++ rest) ∧ AllBlank behind ∧ IsDigits digits ∧
      digits.length ≤ 2 ∧ decimal digits = n ∧ (digits.length < 2 → NoDigit rest) := by
  unfold shortNumber
  simp only [bind_eq_some, blanks_eq_some, number_eq_some]
  constructor
  · rintro ⟨_, _, ⟨behind, rfl, blank, -⟩, digits, rfl, isDigit, value, some, few, stops⟩
    exact ⟨behind, digits, rfl, blank, ⟨List.length_pos_iff.1 some, isDigit⟩, few, value, stops⟩
  · rintro ⟨behind, digits, rfl, blank, isDigits, few, value, stops⟩
    exact ⟨(), _, ⟨behind, rfl, blank, isDigits.noBlank⟩, digits, rfl, isDigits.2, value,
      List.length_pos_iff.2 isDigits.1, few, stops⟩

theorem exists_isPart {between : List Char} {u : Unit} (visible : ¬ isBlank mark)
    (marked : separator mark text = some (u, between))
    (read : shortNumber between = some (n, rest)) :
    ∃ piece, text = piece ++ rest ∧ IsPart mark piece n := by
  obtain ⟨before, rfl, before_blank⟩ := (separator_eq_some visible).1 marked
  obtain ⟨behind, digits, rfl, behind_blank, isDigits, few, rfl, -⟩ := shortNumber_eq_some.1 read
  refine ⟨_, ?_, .intro before_blank behind_blank isDigits few⟩
  simp only [List.append_assoc, List.cons_append]

theorem part_bind {α : Type} {f : Nat → Reader α} (visible : ¬ isBlank mark)
    (isPart : IsPart mark piece n) (stops : NoDigit rest) :
    (separator mark >>= fun _ => shortNumber >>= f) (piece ++ rest) = f n rest := by
  cases isPart with
  | @intro before behind digits before_blank behind_blank isDigits few =>
    simp only [List.append_assoc, List.cons_append]
    rw [bind_of_some ((separator_eq_some (u := ()) visible).2 ⟨before, rfl, before_blank⟩),
      bind_of_some (shortNumber_eq_some.2
        ⟨behind, digits, rfl, behind_blank, isDigits, few, rfl, fun _ => stops⟩)]

/-! ## Years -/

theorem exists_isYear {value : Int} (read : year text = some (value, rest)) :
    ∃ front piece, text = front ++ piece ++ rest ∧ AllBlank front ∧ IsYear piece value := by
  obtain ⟨_, between, skipped, signed⟩ := bind_eq_some.1 read
  obtain ⟨front, rfl, blank, -⟩ := blanks_eq_some.1 skipped
  suffices ∃ piece, between = piece ++ rest ∧ IsYear piece value by
    obtain ⟨piece, rfl, isYear⟩ := this
    exact ⟨front, piece, (List.append_assoc ..).symm, blank, isYear⟩
  clear read skipped
  rename' signed => read
  rw [startsWith_bind_eq_some] at read
  split at read
  · simp only [bind_eq_some, literal_eq_some, anyNumber_eq_some, pure_eq_some] at read
    obtain ⟨_, _, rfl, _, _, ⟨digits, rfl, isDigits, rfl, -⟩, rfl, rfl⟩ := read
    exact ⟨_, rfl, .negative isDigits⟩
  rw [startsWith_bind_eq_some] at read
  split at read
  · simp only [bind_eq_some, literal_eq_some, anyNumber_eq_some, pure_eq_some] at read
    obtain ⟨_, _, rfl, _, _, ⟨digits, rfl, isDigits, rfl, -⟩, rfl, rfl⟩ := read
    exact ⟨_, rfl, .positive isDigits⟩
  · simp only [bind_eq_some, number_eq_some, pure_eq_some] at read
    obtain ⟨_, _, ⟨digits, rfl, isDigit, rfl, some, few, -⟩, rfl, rfl⟩ := read
    exact ⟨_, rfl, .unsigned ⟨List.length_pos_iff.1 some, isDigit⟩ few⟩

theorem year_of_isYear {value : Int} (blank : AllBlank front) (isYear : IsYear piece value)
    (stops : NoDigit rest) : year (front ++ piece ++ rest) = some (value, rest) := by
  have first : NoBlank (piece ++ rest) := by
    cases isYear with
    | unsigned isDigits => exact isDigits.noBlank
    | negative | positive => simp [NoBlank, isBlank]
  rw [year, List.append_assoc, bind_of_some (blanks_append blank first), startsWith_bind_eq_some]
  cases isYear with
  | unsigned isDigits few =>
    have noMinus : ¬ ((piece ++ rest).head? == some '-') := by
      simpa using isDigits.head?_ne '-' (by decide)
    have noPlus : ¬ ((piece ++ rest).head? == some '+') := by
      simpa using isDigits.head?_ne '+' (by decide)
    rw [if_neg noMinus, startsWith_bind_eq_some, if_neg noPlus]
    exact bind_of_some (number_eq_some.2 ⟨piece, rfl, isDigits.2, rfl,
      List.length_pos_iff.2 isDigits.1, few, fun _ => stops⟩)
  | @negative digits isDigits =>
    have minus : ('-' :: digits ++ rest).head? == some '-' := by simp
    rw [if_pos minus]
    exact (bind_of_some (literal_cons ..)).trans
      (bind_of_some (anyNumber_eq_some.2 ⟨digits, rfl, isDigits, rfl, stops⟩))
  | @positive digits isDigits =>
    have noMinus : ¬ (('+' :: digits ++ rest).head? == some '-') := by simp
    have plus : ('+' :: digits ++ rest).head? == some '+' := by simp
    rw [if_neg noMinus, startsWith_bind_eq_some, if_pos plus]
    exact (bind_of_some (literal_cons ..)).trans
      (bind_of_some (anyNumber_eq_some.2 ⟨digits, rfl, isDigits, rfl, stops⟩))

/-! ## Times -/

theorem exists_naive {fields : Fields} (read : naiveTime text = some (fields, [])) :
    ∃ naive : Naive, naive.fields = fields ∧ naive.chars = text := by
  obtain ⟨year, _, read₁, read⟩ := bind_eq_some.1 read
  obtain ⟨_, _, mark₂, read⟩ := bind_eq_some.1 read
  obtain ⟨month, _, read₂, read⟩ := bind_eq_some.1 read
  obtain ⟨_, _, mark₃, read⟩ := bind_eq_some.1 read
  obtain ⟨day, _, read₃, read⟩ := bind_eq_some.1 read
  obtain ⟨_, _, mark₄, read⟩ := bind_eq_some.1 read
  obtain ⟨hour, _, read₄, read⟩ := bind_eq_some.1 read
  obtain ⟨_, _, mark₅, read⟩ := bind_eq_some.1 read
  obtain ⟨minute, _, read₅, read⟩ := bind_eq_some.1 read
  obtain ⟨_, _, mark₆, read⟩ := bind_eq_some.1 read
  obtain ⟨second, _, read₆, read⟩ := bind_eq_some.1 read
  obtain ⟨_, _, read₇, read⟩ := bind_eq_some.1 read
  obtain ⟨_, _, read₈, read⟩ := bind_eq_some.1 read
  obtain ⟨rfl, rfl⟩ := pure_eq_some.1 read
  obtain ⟨front, y, rfl, front_blank, isYear⟩ := exists_isYear read₁
  obtain ⟨m, rfl, isMonth⟩ := exists_isPart (by decide) mark₂ read₂
  obtain ⟨d, rfl, isDay⟩ := exists_isPart (by decide) mark₃ read₃
  obtain ⟨h, rfl, isHour⟩ := exists_isPart (by decide) mark₄ read₄
  obtain ⟨n, rfl, isMinute⟩ := exists_isPart (by decide) mark₅ read₅
  obtain ⟨s, rfl, isSecond⟩ := exists_isPart (by decide) mark₆ read₆
  obtain ⟨f, rfl, isFraction⟩ := isFraction_of_fraction read₇
  obtain ⟨back, rfl, back_blank, -⟩ := blanks_eq_some.1 read₈
  refine ⟨⟨_, front, y, m, d, h, n, s, f, back, front_blank, isYear, isMonth, isDay, isHour,
    isMinute, isSecond, isFraction, back_blank⟩, rfl, ?_⟩
  simp only [Naive.chars, List.append_assoc, List.append_nil]

theorem naiveTime_chars (naive : Naive) : naiveTime naive.chars = some (naive.fields, []) := by
  obtain ⟨fields, front, y, m, d, h, n, s, f, back, front_blank, isYear, isMonth, isDay, isHour,
    isMinute, isSecond, isFraction, back_blank⟩ := naive
  have backStops : NoDigit back := by
    have stops : NoDigit (back ++ []) := back_blank.noDigit nofun
    rw [List.append_nil] at stops
    exact stops
  have noPoint : back.head? ≠ some '.' := by
    cases back with
    | nil => nofun
    | cons c back =>
      intro point
      cases point
      exact absurd (back_blank '.' List.mem_cons_self) (by decide)
  have fractionStops : NoDigit (f ++ back) := by
    cases isFraction with
    | none => exact backStops
    | some => simp [NoDigit]
  have last : blanks back = some ((), []) :=
    blanks_eq_some.2 ⟨back, (List.append_nil back).symm, back_blank, nofun⟩
  simp only [Naive.chars, List.append_assoc]
  rw [naiveTime, ← List.append_assoc,
    bind_of_some (year_of_isYear front_blank isYear (isMonth.noDigit (by decide))),
    part_bind (by decide) isMonth (isDay.noDigit (by decide)),
    part_bind (by decide) isDay (isHour.noDigit (by decide)),
    part_bind (by decide) isHour (isMinute.noDigit (by decide)),
    part_bind (by decide) isMinute (isSecond.noDigit (by decide)),
    part_bind (by decide) isSecond fractionStops,
    bind_of_some (fraction_of_isFraction isFraction backStops noPoint), bind_of_some last]
  rfl

/-! ## The other form -/

/-- A time of RFC 3339 has three of them, a naive one has two. -/
def isClockMark (c : Char) : Bool :=
  c == ':' || c == 'Z' || c == 'z'

theorem countP_of_forall {p : Char → Bool} (noMark : ¬ p ':' ∧ ¬ p 'Z' ∧ ¬ p 'z')
    (all : ∀ c ∈ front, p c) : front.countP isClockMark = 0 := by
  refine List.countP_eq_zero.2 fun c among mark => ?_
  simp only [isClockMark, Bool.or_eq_true, beq_iff_eq] at mark
  rcases mark with (rfl | rfl) | rfl
  · exact noMark.1 (all _ among)
  · exact noMark.2.1 (all _ among)
  · exact noMark.2.2 (all _ among)

theorem AllBlank.countP (blank : AllBlank front) : front.countP isClockMark = 0 :=
  countP_of_forall (by decide) blank

theorem IsDigits.countP {digits : List Char} (isDigits : IsDigits digits) :
    digits.countP isClockMark = 0 :=
  countP_of_forall (by decide) isDigits.2

theorem IsYear.countP {value : Int} (isYear : IsYear piece value) :
    piece.countP isClockMark = 0 := by
  cases isYear with
  | unsigned isDigits => exact isDigits.countP
  | negative isDigits | positive isDigits =>
    rw [List.countP_cons_of_neg (by decide), isDigits.countP]

theorem IsPart.countP (isPart : IsPart mark piece n) :
    piece.countP isClockMark = if isClockMark mark then 1 else 0 := by
  cases isPart with
  | intro before_blank behind_blank isDigits =>
    simp only [List.countP_append, List.countP_cons, before_blank.countP, behind_blank.countP,
      isDigits.countP, Nat.zero_add, Nat.add_zero]

theorem IsFraction.countP (isFraction : IsFraction piece) : piece.countP isClockMark = 0 := by
  cases isFraction with
  | none => rfl
  | some isDigits => rw [List.countP_cons_of_neg (by decide), isDigits.countP]

theorem Naive.countP_chars (naive : Naive) : naive.chars.countP isClockMark = 2 := by
  simp only [chars, List.countP_append, naive.front_blank.countP, naive.isYear.countP,
    naive.isMonth.countP, naive.isDay.countP, naive.isHour.countP, naive.isMinute.countP,
    naive.isSecond.countP, naive.isFraction.countP, naive.back_blank.countP]
  rfl

theorem countP_of_offset {offset : Int} (read : Timestamp.offset text = some (offset, rest)) :
    1 ≤ text.countP isClockMark := by
  obtain ⟨sign, between, took, numeric⟩ := bind_eq_some.1 read
  obtain ⟨rfl, -⟩ := one_eq_some.1 took
  by_cases utc : sign == 'Z' || sign == 'z'
  · have mark : isClockMark sign := by
      simpa [isClockMark, or_assoc] using Or.inr utc
    rw [List.countP_cons_of_pos mark]
    exact Nat.le_add_left 1 _
  · rw [if_neg utc] at numeric
    obtain ⟨_, _, hours, numeric⟩ := bind_eq_some.1 numeric
    obtain ⟨_, _, colon, -⟩ := bind_eq_some.1 numeric
    obtain ⟨_, rfl, -⟩ := number_eq_some.1 hours
    rw [literal_eq_some] at colon
    subst colon
    have mark : isClockMark ':' := rfl
    simp only [List.countP_cons, List.countP_append, if_pos mark]
    omega

theorem countP_of_number {least most : Nat} (read : number least most text = some (n, rest)) :
    rest.countP isClockMark ≤ text.countP isClockMark := by
  obtain ⟨digits, rfl, -⟩ := number_eq_some.1 read
  rw [List.countP_append]
  exact Nat.le_add_left _ _

theorem countP_of_zonedTime {fields : Fields} {offset : Int}
    (read : zonedTime text = some ((fields, offset), rest)) : 3 ≤ text.countP isClockMark := by
  -- Each reader hands on what it leaves, so no mark in front of the offset is lost from sight.
  obtain ⟨_, t₁, year, read₁⟩ := bind_eq_some.1 read
  obtain ⟨_, t₂, hyphen₁, read₂⟩ := bind_eq_some.1 read₁
  obtain ⟨_, t₃, month, read₃⟩ := bind_eq_some.1 read₂
  obtain ⟨_, t₄, hyphen₂, read₄⟩ := bind_eq_some.1 read₃
  obtain ⟨_, t₅, day, read₅⟩ := bind_eq_some.1 read₄
  obtain ⟨_, t₆, between, read₆⟩ := bind_eq_some.1 read₅
  obtain ⟨_, t₇, hour, read₇⟩ := bind_eq_some.1 read₆
  obtain ⟨_, t₈, colon₁, read₈⟩ := bind_eq_some.1 read₇
  obtain ⟨_, t₉, minute, read₉⟩ := bind_eq_some.1 read₈
  obtain ⟨_, t₁₀, colon₂, read₁₀⟩ := bind_eq_some.1 read₉
  obtain ⟨_, t₁₁, second, read₁₁⟩ := bind_eq_some.1 read₁₀
  obtain ⟨_, t₁₂, fraction, read₁₂⟩ := bind_eq_some.1 read₁₁
  obtain ⟨_, t₁₃, offset, -⟩ := bind_eq_some.1 read₁₂
  have mark : isClockMark ':' := rfl
  have year := countP_of_number year
  have month := countP_of_number month
  have day := countP_of_number day
  have hour := countP_of_number hour
  have minute := countP_of_number minute
  have second := countP_of_number second
  have offset := countP_of_offset offset
  obtain ⟨piece, same, -⟩ := isFraction_of_fraction fraction
  rw [literal_eq_some] at hyphen₁ hyphen₂ colon₁ colon₂
  obtain ⟨between, -⟩ := one_eq_some.1 between
  simp only [hyphen₁, hyphen₂, colon₁, colon₂, between, same, List.countP_cons,
    List.countP_append, if_pos mark] at year month day hour minute second
  omega

theorem Naive.zoned?_text (naive : Naive) : zoned? naive.text = none := by
  have other : zonedTime.readAll? naive.chars = none := by
    cases read : zonedTime.readAll? naive.chars with
    | none => rfl
    | some result =>
      obtain ⟨fields, offset⟩ := result
      have marks := countP_of_zonedTime (readAll?_eq_some.1 read)
      rw [naive.countP_chars] at marks
      omega
  rw [zoned?, text, String.toList_ofList, other]
  rfl

end ProjectClient.Timestamp

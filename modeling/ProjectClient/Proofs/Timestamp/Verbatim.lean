import ProjectClient.Proofs.Timestamp.Utc

/-! Which texts are read as times. All others are shown as they stand, and so is every text that was
shown before. -/
namespace ProjectClient.Timestamp

/-! ## Texts that are read -/

theorem isSome_zoned?_iff (text : String) :
    (zoned? text).isSome ↔ ∃ time : Rfc3339, time.text = text := by
  constructor
  · intro accepted
    obtain ⟨minute, accepted⟩ := Option.isSome_iff_exists.1 accepted
    simp only [zoned?, Option.bind_eq_bind, Option.bind_eq_some_iff] at accepted
    obtain ⟨⟨fields, offset⟩, read, named, exist, -⟩ := accepted
    have isTime := fields.isSome_toMinute?_iff.1 (Option.isSome_of_eq_some exist)
    obtain ⟨time, same, -⟩ :=
      exists_rfc3339_of_zonedTime (Reader.readAll?_eq_some.1 read) isTime
    exact ⟨time, by rw [Rfc3339.text, same, String.ofList_toList]⟩
  · rintro ⟨time, rfl⟩
    rw [time.zoned?_text]
    rfl

structure Naive.IsAccepted (naive : Naive) : Prop where
  inRange : InRange naive.fields.year
  isTime : naive.fields.IsTime

theorem Naive.isSome_naive?_iff (naive : Naive) : (naive? naive.text).isSome ↔ naive.IsAccepted := by
  rw [naive.naive?_text]
  constructor
  · intro accepted
    split at accepted
    · rename_i inRange
      exact ⟨inRange, naive.fields.isSome_toMinute?_iff.1 accepted⟩
    · cases accepted
  · rintro ⟨inRange, isTime⟩
    rw [if_pos inRange]
    exact naive.fields.isSome_toMinute?_iff.2 isTime

theorem isSome_naive?_iff (text : String) :
    (naive? text).isSome ↔ ∃ naive : Naive, naive.text = text ∧ naive.IsAccepted := by
  constructor
  · intro accepted
    obtain ⟨naive, rfl⟩ := exists_text_eq accepted
    exact ⟨naive, rfl, naive.isSome_naive?_iff.1 accepted⟩
  · rintro ⟨naive, rfl, accepted⟩
    exact naive.isSome_naive?_iff.2 accepted

/-! ## Shown texts -/

theorem countP_padded {width n : Nat} : (padded width n).toList.countP isClockMark = 0 :=
  countP_of_forall (by decide) isDigit_padded

theorem countP_yearText (year : Int) : (yearText year).toList.countP isClockMark = 0 := by
  unfold yearText
  split
  · exact countP_padded
  · have sign : (if year < 0 then "-" else "+").toList.countP isClockMark = 0 := by
      split <;> decide
    rw [String.toList_append, List.countP_append, sign, countP_padded]

theorem Minute.countP_text (minute : Minute) : minute.text.toList.countP isClockMark = 1 := by
  have plain (text : String) : toString text = text := rfl
  unfold text
  simp [String.toList_append, plain, List.countP_cons, countP_padded, countP_yearText]
  decide

theorem parse?_eq_none_iff (text : String) :
    parse? text = none ↔ zoned? text = none ∧ naive? text = none := by
  rw [parse?, Option.orElse_eq_orElse, Option.orElse_eq_or, Option.or_eq_none_iff]

theorem parse?_eq_none_of_countP {text : String} (few : text.toList.countP isClockMark < 2) :
    parse? text = none := by
  refine (parse?_eq_none_iff text).2 ⟨?_, ?_⟩
  · cases read : zoned? text with
    | none => rfl
    | some minute =>
      obtain ⟨time, rfl⟩ := (isSome_zoned?_iff text).1 (Option.isSome_of_eq_some read)
      have marks := countP_of_zonedTime time.zonedTime_chars
      rw [Rfc3339.text, String.toList_ofList] at few
      omega
  · cases read : naive? text with
    | none => rfl
    | some minute =>
      obtain ⟨naive, rfl⟩ := exists_text_eq (Option.isSome_of_eq_some read)
      rw [Naive.text, String.toList_ofList, naive.countP_chars] at few
      exact absurd few (Nat.lt_irrefl 2)

theorem Minute.parse?_text (minute : Minute) : parse? minute.text = none :=
  parse?_eq_none_of_countP (by rw [minute.countP_text]; decide)

theorem shown_of_parse?_eq_none {text : String} (unread : parse? text = none) :
    shown (some text) = text := by
  rw [shown, unread]
  rfl

theorem shown_eq_self_iff (text : String) : shown (some text) = text ↔ parse? text = none := by
  refine ⟨fun same => ?_, shown_of_parse?_eq_none⟩
  cases read : parse? text with
  | none => rfl
  | some minute =>
    have isShown : shown (some text) = minute.text := by
      rw [shown, read]
      rfl
    rw [← same, isShown, minute.parse?_text] at read
    cases read

theorem parse?_shown (text? : Option String) : parse? (shown text?) = none := by
  cases text? with
  | none => exact parse?_eq_none_of_countP (by decide)
  | some text =>
    cases read : parse? text with
    | none => rwa [shown_of_parse?_eq_none read]
    | some minute =>
      rw [shown, read]
      exact minute.parse?_text

/-- A text is shown as it stands if and only if it is no time in either form. Both forms are read
exactly where an existing time is written, no text is in both, and what is shown is in neither, so
it is shown as it stands again. -/
theorem shown_as_it_stands :
    (∀ text, (zoned? text).isSome ↔ ∃ time : Rfc3339, time.text = text) ∧
    (∀ text, (naive? text).isSome ↔ ∃ naive : Naive, naive.text = text ∧ naive.IsAccepted) ∧
    (∀ text, shown (some text) = text ↔
      (¬ ∃ time : Rfc3339, time.text = text) ∧
        ¬ ∃ naive : Naive, naive.text = text ∧ naive.IsAccepted) ∧
    (∀ (time : Rfc3339) (naive : Naive), time.text ≠ naive.text) ∧
    (∀ text? : Option String, shown (some (shown text?)) = shown text?) := by
  refine ⟨isSome_zoned?_iff, isSome_naive?_iff, fun text => ?_, fun time naive same => ?_,
    fun text? => ?_⟩
  · rw [shown_eq_self_iff, parse?_eq_none_iff, ← isSome_zoned?_iff, ← isSome_naive?_iff,
      Option.not_isSome_iff_eq_none, Option.not_isSome_iff_eq_none]
  · have read := time.zoned?_text
    rw [same, naive.zoned?_text] at read
    cases read
  · exact shown_of_parse?_eq_none (parse?_shown text?)

end ProjectClient.Timestamp

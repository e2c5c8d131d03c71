import ProjectClient.Text.Utf8

/-! Texts as bytes. No character's bytes begin another's, so a text is told from its bytes. -/
namespace ProjectClient.Text

theorem ofUtf8?_flatMap (text : List Char) :
    ofUtf8? (text.flatMap String.utf8EncodeChar) = some (String.ofList text) := by
  have bytes : (⟨(text.flatMap String.utf8EncodeChar).toArray⟩ : ByteArray) = text.utf8Encode := by
    rw [List.utf8Encode, ByteArray.ext_iff, List.data_toByteArray]
  rw [ofUtf8?, bytes, String.fromUTF8?, dif_pos ByteArray.isValidUTF8_utf8Encode]
  rfl

theorem toList_loop (bytes : ByteArray) (i : Nat) (reversed : List UInt8) :
    ByteArray.toList.loop bytes i reversed = reversed.reverse ++ bytes.data.toList.drop i := by
  have size : bytes.size = bytes.data.toList.length := by simp
  induction left : bytes.size - i generalizing i reversed with
  | zero =>
    have past : bytes.data.toList.length ≤ i := by omega
    rw [ByteArray.toList.loop, if_neg (by omega), List.drop_eq_nil_of_le past, List.append_nil]
  | succ n ih =>
    have inside : i < bytes.data.toList.length := by omega
    have first : bytes.get! i = bytes.data.toList[i] := getElem!_pos bytes.data i inside
    rw [ByteArray.toList.loop, if_pos (by omega), ih (i + 1) _ (by omega),
      List.drop_eq_getElem_cons inside, first]
    simp

theorem utf8_eq_flatMap (text : String) :
    utf8 text = text.toList.flatMap String.utf8EncodeChar := by
  have encoded : text.toList.utf8Encode = text.toUTF8 := String.utf8Encode_toList
  rw [List.utf8Encode, ByteArray.ext_iff, List.data_toByteArray] at encoded
  rw [utf8, ByteArray.toList, toList_loop, ← encoded]
  simp

@[simp] theorem utf8_append (text other : String) :
    utf8 (text ++ other) = utf8 text ++ utf8 other := by
  simp [utf8_eq_flatMap]

@[simp] theorem ofUtf8?_utf8 (text : String) : ofUtf8? (utf8 text) = some text := by
  rw [utf8_eq_flatMap, ofUtf8?_flatMap, String.ofList_toList]

theorem flatMap_utf8_injective {text other : List Char}
    (h : text.flatMap String.utf8EncodeChar = other.flatMap String.utf8EncodeChar) :
    text = other := by
  have decoded := congrArg ofUtf8? h
  simp only [ofUtf8?_flatMap, Option.some.injEq] at decoded
  exact String.ofList_injective decoded

variable {c d : Char} {b : UInt8}

theorem ofUtf8?_eq_some {bytes : List UInt8} {text : String} :
    ofUtf8? bytes = some text ↔ bytes = text.toList.flatMap String.utf8EncodeChar := by
  constructor
  · intro h
    rw [ofUtf8?, String.fromUTF8?] at h
    split at h
    · rename_i valid
      cases h
      have encoded : (String.fromUTF8 ⟨bytes.toArray⟩ valid).toList.utf8Encode = ⟨bytes.toArray⟩ :=
        String.utf8Encode_toList
      rw [List.utf8Encode, ByteArray.ext_iff, List.data_toByteArray] at encoded
      exact (congrArg Array.toList encoded).symm
    · cases h
  · rintro rfl
    rw [ofUtf8?_flatMap, String.ofList_toList]

theorem le_of_mem_high (high : 0x80 ≤ c.toNat) (h : b ∈ String.utf8EncodeChar c) :
    0x80 ≤ b.toNat := by
  have set (x : UInt8) {y : UInt8} (large : 0x80 ≤ y.toNat) : 0x80 ≤ (x ||| y).toNat := by
    rw [UInt8.toNat_or]
    exact Nat.le_trans large Nat.right_le_or
  rcases Char.utf8Size_eq c with one | two | three | four
  · have low : c.toNat ≤ 0x7f := Char.utf8Size_eq_one_iff.1 one
    omega
  · rw [String.utf8EncodeChar_eq_cons_cons two] at h
    simp only [List.mem_cons, List.not_mem_nil, or_false] at h
    rcases h with rfl | rfl <;> exact set _ (by decide)
  · rw [String.utf8EncodeChar_eq_cons_cons_cons three] at h
    simp only [List.mem_cons, List.not_mem_nil, or_false] at h
    rcases h with rfl | rfl | rfl <;> exact set _ (by decide)
  · rw [String.utf8EncodeChar_eq_cons_cons_cons_cons four] at h
    simp only [List.mem_cons, List.not_mem_nil, or_false] at h
    rcases h with rfl | rfl | rfl | rfl <;> exact set _ (by decide)

theorem utf8EncodeChar_append_inj {s t : List UInt8}
    (same : String.utf8EncodeChar c ++ s = String.utf8EncodeChar d ++ t) : c = d ∧ s = t := by
  have arrays : (String.utf8EncodeChar c).toByteArray ++ s.toByteArray =
      (String.utf8EncodeChar d).toByteArray ++ t.toByteArray := by
    rw [← List.toByteArray_append, ← List.toByteArray_append, same]
  have first := ByteArray.utf8DecodeChar?_utf8EncodeChar_append (b := s.toByteArray) (c := c)
  rw [arrays, ByteArray.utf8DecodeChar?_utf8EncodeChar_append] at first
  cases first
  exact ⟨rfl, List.append_cancel_left same⟩

/-- Only the first byte of a character looks like a first byte. -/
theorem utf8EncodeChar_eq_cons (c : Char) :
    ∃ b more, String.utf8EncodeChar c = b :: more ∧ b.IsUTF8FirstByte ∧
      ∀ x ∈ more, ¬ x.IsUTF8FirstByte := by
  have looks (i : Nat) (h : i < (String.utf8EncodeChar c).length) :
      (String.utf8EncodeChar c)[i].IsUTF8FirstByte ↔ i = 0 :=
    UInt8.isUTF8FirstByte_getElem_utf8EncodeChar
  cases bytes : String.utf8EncodeChar c with
  | nil => exact absurd bytes String.utf8EncodeChar_ne_nil
  | cons b more =>
    simp only [bytes] at looks
    refine ⟨b, more, rfl, (looks 0 (by simp)).2 rfl, fun x h => ?_⟩
    obtain ⟨i, small, rfl⟩ := List.mem_iff_getElem.1 h
    intro first
    have zeroth := (looks (i + 1) (by simpa using small)).1 first
    omega

end ProjectClient.Text

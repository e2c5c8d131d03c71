/-! UTF-8 as bytes in lists. -/
namespace ProjectClient.Text

def utf8 (text : String) : List UInt8 := text.toUTF8.toList

def ofUtf8? (bytes : List UInt8) : Option String := String.fromUTF8? ⟨bytes.toArray⟩

variable {c : Char}

theorem utf8EncodeChar_low (low : c.toNat < 0x80) :
    String.utf8EncodeChar c = [c.val.toUInt8] :=
  String.utf8EncodeChar_eq_singleton (Char.utf8Size_eq_one_iff.2 (Nat.le_of_lt_succ low))

theorem toNat_of_low (low : c.toNat < 0x80) : c.val.toUInt8.toNat = c.toNat := by
  have small : c.val.toNat < 0x80 := low
  rw [UInt32.toNat_toUInt8, Nat.mod_eq_of_lt (by omega)]
  rfl

theorem lt_of_mem_flatMap_utf8 {chars : List Char} {b : UInt8} (low : ∀ c ∈ chars, c.toNat < 0x80)
    (h : b ∈ chars.flatMap String.utf8EncodeChar) : b < 0x80 := by
  obtain ⟨c, among, h⟩ := List.mem_flatMap.1 h
  rw [utf8EncodeChar_low (low c among), List.mem_singleton] at h
  rw [h, UInt8.lt_iff_toNat_lt, toNat_of_low (low c among)]
  exact low c among

end ProjectClient.Text

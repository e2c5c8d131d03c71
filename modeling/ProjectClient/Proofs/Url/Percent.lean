import ProjectClient.Proofs.Text.Utf8
import ProjectClient.Url.Percent

/-! What percent encoding writes, and that decoding gives back what was encoded. -/
namespace ProjectClient

namespace Url

variable {set : Char → Bool} {text : List Char} {c : Char}

theorem hexValue?_upperHexDigit {n : Nat} (h : n < 16) :
    hexValue? (upperHexDigit n) = some n := by
  revert n
  decide

theorem percentDecode_percentByte (b : UInt8) (rest : List Char) :
    percentDecode (percentByte b ++ rest) = b :: percentDecode rest := by
  have high : b.toNat / 16 < 16 := Nat.div_lt_of_lt_mul b.toNat_lt
  have low : b.toNat % 16 < 16 := Nat.mod_lt _ (by decide)
  have whole : b.toNat / 16 * 16 + b.toNat % 16 = b.toNat := Nat.div_add_mod' _ _
  simp only [percentByte, List.cons_append, List.nil_append, percentDecode,
    hexValue?_upperHexDigit high, hexValue?_upperHexDigit low, whole, UInt8.ofNat_toNat]

theorem percentDecode_percentBytes (bytes : List UInt8) (rest : List Char) :
    percentDecode (bytes.flatMap percentByte ++ rest) = bytes ++ percentDecode rest := by
  induction bytes with
  | nil => rfl
  | cons b bytes ih =>
    rw [List.flatMap_cons, List.append_assoc, percentDecode_percentByte, ih, List.cons_append]

theorem percentDecode_cons (h : c ≠ '%') (rest : List Char) :
    percentDecode (c :: rest) = String.utf8EncodeChar c ++ percentDecode rest := by
  rw [percentDecode]
  rintro a b tail rfl
  contradiction

theorem percentDecode_of_notMem (none : '%' ∉ text) :
    percentDecode text = text.flatMap String.utf8EncodeChar := by
  induction text with
  | nil => rfl
  | cons c text ih =>
    rw [List.mem_cons, not_or] at none
    rw [percentDecode_cons (Ne.symm none.1), ih none.2, List.flatMap_cons]

theorem percentDecode_percentChar (percent : set '%') (c : Char) (rest : List Char) :
    percentDecode (percentChar set c ++ rest) =
      String.utf8EncodeChar c ++ percentDecode rest := by
  unfold percentChar
  split
  · exact percentDecode_percentBytes _ rest
  · rename_i notIn
    have ne : c ≠ '%' := by
      rintro rfl
      exact notIn percent
    exact percentDecode_cons ne rest

theorem percentDecode_percentEncode (percent : set '%') (text : List Char) :
    percentDecode (percentEncode set text).toList = text.flatMap String.utf8EncodeChar := by
  rw [percentEncode, String.toList_ofList]
  induction text with
  | nil => rfl
  | cons c text ih =>
    rw [List.flatMap_cons, List.flatMap_cons, percentDecode_percentChar percent, ih]

theorem percentEncode_injective (percent : set '%') {other : List Char}
    (h : percentEncode set text = percentEncode set other) : text = other := by
  have bytes := congrArg (fun s => percentDecode s.toList) h
  simp only [percentDecode_percentEncode percent] at bytes
  exact Text.flatMap_utf8_injective bytes

theorem mem_percentChar {d : Char} (h : d ∈ percentChar set c) :
    d = c ∧ set c = false ∨ d = '%' ∨ ∃ n < 16, d = upperHexDigit n := by
  unfold percentChar at h
  split at h
  · obtain ⟨b, -, inByte⟩ := List.mem_flatMap.1 h
    have high : b.toNat / 16 < 16 := Nat.div_lt_of_lt_mul b.toNat_lt
    have low : b.toNat % 16 < 16 := Nat.mod_lt _ (by decide)
    simp only [percentByte, List.mem_cons, List.not_mem_nil, or_false] at inByte
    rcases inByte with rfl | rfl | rfl
    · exact .inr (.inl rfl)
    · exact .inr (.inr ⟨_, high, rfl⟩)
    · exact .inr (.inr ⟨_, low, rfl⟩)
  · rename_i notIn
    exact .inl ⟨List.mem_singleton.1 h, by simpa using notIn⟩

theorem percentChar_ne_nil (set : Char → Bool) (c : Char) : percentChar set c ≠ [] := by
  unfold percentChar
  split
  · intro none
    have bytes := List.flatMap_eq_nil_iff.1 none
    obtain ⟨b, more, first⟩ := List.exists_cons_of_ne_nil (String.utf8EncodeChar_ne_nil (c := c))
    have byte := bytes b (first ▸ List.mem_cons_self)
    cases byte
  · exact List.cons_ne_nil c []

theorem percentEncode_ne_empty (h : text ≠ []) : percentEncode set text ≠ "" := by
  obtain ⟨c, rest, rfl⟩ := List.exists_cons_of_ne_nil h
  intro none
  have written := congrArg String.toList none
  rw [percentEncode, String.toList_ofList, List.flatMap_cons] at written
  exact percentChar_ne_nil set c (List.append_eq_nil_iff.1 written).1

theorem mem_percentEncode {d : Char} (h : d ∈ (percentEncode set text).toList) :
    d ∈ text ∧ set d = false ∨ d = '%' ∨ ∃ n < 16, d = upperHexDigit n := by
  rw [percentEncode, String.toList_ofList, List.mem_flatMap] at h
  obtain ⟨c, inText, h⟩ := h
  rcases mem_percentChar h with ⟨rfl, notIn⟩ | written
  · exact .inl ⟨inText, notIn⟩
  · exact .inr written

theorem notMem_percentEncode (inSet : set c) (percent : c ≠ '%')
    (notDigit : hexValue? c = none) : c ∉ (percentEncode set text).toList := by
  intro h
  rcases mem_percentEncode h with ⟨-, notIn⟩ | sign | ⟨n, small, digit⟩
  · exact Bool.false_ne_true (notIn.symm.trans inSet)
  · exact percent sign
  · rw [digit, hexValue?_upperHexDigit small] at notDigit
    cases notDigit

theorem percentEncode_eq_self (h : ∀ c ∈ text, set c = false) :
    percentEncode set text = String.ofList text := by
  have each (cs : List Char) (outside : ∀ c ∈ cs, set c = false) :
      cs.flatMap (percentChar set) = cs := by
    induction cs with
    | nil => rfl
    | cons c cs ih =>
      rw [List.forall_mem_cons] at outside
      rw [List.flatMap_cons, percentChar, outside.1, ih outside.2]
      rfl
  rw [percentEncode, each text h]

end Url

end ProjectClient

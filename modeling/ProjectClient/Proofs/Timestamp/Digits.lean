import Mathlib.Algebra.Group.Nat.Defs
import Mathlib.Data.List.Induction
import ProjectClient.Proofs.Timestamp.Reads
import ProjectClient.Proofs.Url.Ipv4
import ProjectClient.Timestamp.Shown

/-! Numbers with a fixed count of digits, as they are written and read in a time. -/
namespace ProjectClient.Timestamp

def digits : Nat → Nat → List Char
  | 0, _ => []
  | width + 1, n => digits width (n / 10) ++ [(n % 10).digitChar]

variable {width n : Nat}

theorem digitChar_spec {d : Nat} (small : d < 10) :
    d.digitChar.isDigit ∧ d.digitChar.toNat - '0'.toNat = d := by
  revert d
  decide

theorem length_digits : (digits width n).length = width := by
  induction width generalizing n with
  | zero => rfl
  | succ width ih => rw [digits, List.length_append, ih, List.length_singleton]

theorem isDigit_of_mem_digits : ∀ c ∈ digits width n, c.isDigit := by
  induction width generalizing n with
  | zero => nofun
  | succ width ih =>
    intro c among
    rw [digits, List.mem_append, List.mem_singleton] at among
    rcases among with front | rfl
    · exact ih c front
    · exact (digitChar_spec (Nat.mod_lt n (by decide))).1

theorem decimal_concat (front : List Char) (c : Char) :
    Reader.decimal (front ++ [c]) = 10 * Reader.decimal front + (c.toNat - '0'.toNat) := by
  unfold Reader.decimal
  rw [List.foldl_append]
  rfl

theorem decimal_digits (small : n < 10 ^ width) : Reader.decimal (digits width n) = n := by
  induction width generalizing n with
  | zero =>
    have none : n = 0 := by simpa using small
    rw [none]
    rfl
  | succ width ih =>
    rw [Nat.pow_succ] at small
    rw [digits, decimal_concat, ih (by omega), (digitChar_spec (Nat.mod_lt n (by decide))).2]
    omega

theorem number_digits (small : n < 10 ^ width) (rest : List Char) :
    Reader.number width width (digits width n ++ rest) = some (n, rest) := by
  refine Reader.number_eq_some.2 ⟨digits width n, rfl, isDigit_of_mem_digits, ?_⟩
  rw [decimal_digits small, length_digits]
  exact ⟨rfl, Nat.le_refl _, Nat.le_refl _, fun less => absurd less (Nat.lt_irrefl _)⟩

theorem digitChar_of_isDigit {c : Char} (isDigit : c.isDigit) :
    c.toNat - '0'.toNat < 10 ∧ (c.toNat - '0'.toNat).digitChar = c := by
  have bounds : 48 ≤ c.toNat ∧ c.toNat ≤ 57 := by
    simpa [Char.isDigit, UInt32.le_iff_toNat_le] using isDigit
  have small : c.toNat - '0'.toNat < 10 := by
    have zero : '0'.toNat = 48 := rfl
    omega
  refine ⟨small, ?_⟩
  have spelled : ∀ d < 10, d.digitChar = Char.ofNat (48 + d) := by decide
  have zero : '0'.toNat = 48 := rfl
  rw [spelled _ small, zero, Nat.add_sub_cancel' bounds.1, Char.ofNat_toNat]

theorem digits_decimal {text : List Char} (isDigit : ∀ c ∈ text, c.isDigit) :
    digits text.length (Reader.decimal text) = text := by
  induction text using List.reverseRecOn with
  | nil => rfl
  | append_singleton front c ih =>
    obtain ⟨small, spelled⟩ := digitChar_of_isDigit (isDigit c (by simp))
    rw [List.length_append, List.length_singleton, decimal_concat, digits,
      Nat.mul_add_div (by decide), Nat.div_eq_of_lt small, Nat.add_zero, Nat.mul_add_mod,
      Nat.mod_eq_of_lt small, spelled, ih fun c among => isDigit c (List.mem_append_left _ among)]

theorem decimal_lt {text : List Char} (isDigit : ∀ c ∈ text, c.isDigit) :
    Reader.decimal text < 10 ^ text.length := by
  induction text using List.reverseRecOn with
  | nil => decide
  | append_singleton front c ih =>
    have last := (digitChar_of_isDigit (isDigit c (by simp))).1
    have before := ih fun c among => isDigit c (List.mem_append_left _ among)
    rw [List.length_append, List.length_singleton, decimal_concat, Nat.pow_succ]
    omega

theorem number_eq_some_iff {width n : Nat} {text rest : List Char} :
    Reader.number width width text = some (n, rest) ↔
      text = digits width n ++ rest ∧ n < 10 ^ width := by
  constructor
  · intro read
    obtain ⟨written, rfl, isDigit, rfl, least, most, -⟩ := Reader.number_eq_some.1 read
    obtain rfl : written.length = width := Nat.le_antisymm most least
    rw [digits_decimal isDigit]
    exact ⟨rfl, decimal_lt isDigit⟩
  · rintro ⟨rfl, small⟩
    exact number_digits small rest

/-! ## Leading zeros -/

theorem digits_zero : digits width 0 = List.replicate width '0' := by
  induction width with
  | zero => rfl
  | succ width ih =>
    rw [digits, List.replicate_succ', Nat.zero_div, ih]
    rfl

theorem digits_eq (some : 0 < width) (small : n < 10 ^ width) :
    digits width n =
      List.replicate (width - (Nat.toDigits 10 n).length) '0' ++ Nat.toDigits 10 n := by
  induction width generalizing n with
  | zero => exact absurd some (Nat.lt_irrefl 0)
  | succ width ih =>
    by_cases single : n < 10
    · rw [digits, Nat.div_eq_of_lt single, Nat.mod_eq_of_lt single, digits_zero,
        Nat.toDigits_of_lt_base single]
      rfl
    · have split : n = 10 * (n / 10) + n % 10 := (Nat.div_add_mod n 10).symm
      have front : Nat.toDigits 10 n = Nat.toDigits 10 (n / 10) ++ [(n % 10).digitChar] := by
        conv => lhs; rw [split]
        exact Url.toDigits_concat (by decide) (by omega) (Nat.mod_lt n (by decide))
      rw [Nat.pow_succ] at small
      have pos : 0 < width := by
        rcases Nat.eq_zero_or_pos width with rfl | pos
        · exact absurd small (by simpa using single)
        · exact pos
      rw [digits, ih pos (by omega), front, List.length_append, List.length_singleton,
        Nat.add_sub_add_right, List.append_assoc]

theorem toList_padded (some : 0 < width) (small : n < 10 ^ width) :
    (padded width n).toList = digits width n := by
  have text : toString n = String.ofList (Nat.toDigits 10 n) := rfl
  rw [digits_eq some small, padded, Text.atRight, Text.filler, text]
  simp

theorem isDigit_padded {width n : Nat} : ∀ c ∈ (padded width n).toList, c.isDigit := by
  have text : toString n = String.ofList (Nat.toDigits 10 n) := rfl
  intro c among
  rw [padded, Text.atRight, Text.filler, text, String.toList_append, String.toList_ofList,
    String.toList_ofList, List.mem_append] at among
  rcases among with filling | own
  · rw [List.eq_of_mem_replicate filling]
    rfl
  · obtain ⟨d, small, rfl⟩ := Url.mem_toDigits (by decide) own
    exact (digitChar_spec small).1

end ProjectClient.Timestamp

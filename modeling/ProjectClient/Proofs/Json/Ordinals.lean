import Mathlib.Data.List.Induction
import ProjectClient.Proofs.Json.Written

/-! Which numbers are ordinals. It is a matter of how a number is written and of its value, and an
ordinal is written in one way. -/
namespace ProjectClient.Json

open Reader (decimal)
open Text (utf8)

def integerValue : Bytes → Int
  | minus :: digits => -(decimal digits : Int)
  | digits => decimal digits

/-- A number without a point and a power of ten that is not minus zero and that 64 bits hold. -/
structure IsExact (token : Bytes) : Prop where
  isNumber : IsNumber token
  noPoint : point ∉ token
  noPower : 0x65 ∉ token ∧ 0x45 ∉ token
  notMinusZero : token ≠ [minus, zero]
  low : -0x8000000000000000 ≤ integerValue token
  high : integerValue token ≤ 0x7fffffffffffffff

variable {n : Int64} {digits token : Bytes}

/-! ## Decimal texts -/

theorem decimal_concat (digits : Bytes) (digit : UInt8) :
    decimal (digits ++ [digit]) = decimal digits * 10 + (digit.toNat - 0x30) := by
  simp [decimal]

theorem isDigit_iff {b : UInt8} : isDigit b ↔ 0x30 ≤ b.toNat ∧ b.toNat ≤ 0x39 := by
  simp [isDigit, UInt8.le_iff_toNat_le]

theorem IsWhole.front {digit : UInt8} (isWhole : IsWhole (digits ++ [digit])) :
    digits = [] ∨ IsWhole digits ∧ 0 < decimal digits := by
  cases digits with
  | nil => exact .inl rfl
  | cons b digits =>
    obtain ⟨-, nothing⟩ | ⟨other, isDigit, all⟩ := isWhole_cons.1 isWhole
    · simp at nothing
    · have front : IsWhole (b :: digits) :=
        isWhole_cons.2 (.inr ⟨other, isDigit, (List.forall_mem_append.1 all).1⟩)
      exact .inr ⟨front, (Reader.decimal_pos front).2 fun same => other (List.cons.inj same).1⟩

theorem IsWhole.unique {digits digits' : Bytes} (isWhole : IsWhole digits)
    (isWhole' : IsWhole digits') (same : decimal digits = decimal digits') : digits = digits' := by
  -- The last digit is the rest by ten, and the digits in front of it have the quotient.
  induction digits using List.reverseRecOn generalizing digits' with
  | nil => exact absurd rfl isWhole.1.1
  | append_singleton digits digit ih =>
    obtain ⟨digits', digit', rfl⟩ := (List.eq_nil_or_concat' digits').resolve_left isWhole'.1.1
    have range := isDigit_iff.1 (isWhole.1.2 digit (by simp))
    have range' := isDigit_iff.1 (isWhole'.1.2 digit' (by simp))
    rw [decimal_concat, decimal_concat] at same
    have last : digit = digit' := UInt8.toNat_inj.1 (by omega)
    have fronts : decimal digits = decimal digits' := by omega
    have none : decimal [] = 0 := rfl
    obtain rfl | ⟨front, pos⟩ := isWhole.front <;> obtain rfl | ⟨front', pos'⟩ := isWhole'.front
    · rw [last]
    · omega
    · omega
    · rw [last, ih front front' fronts]

/-! ## Ordinals -/

theorem integerValue_of_isWhole (isWhole : IsWhole digits) :
    integerValue digits = decimal digits := by
  obtain ⟨b, s, rfl, digit⟩ := isWhole.1.cons
  rw [integerValue]
  rintro _ ⟨⟩
  exact minus_ne digit rfl

theorem IsOrdinal.toInt_eq (isOrdinal : IsOrdinal n token) : n.toInt = integerValue token := by
  cases isOrdinal with
  | natural isWhole value => rw [integerValue_of_isWhole isWhole, value]
  | negative isWhole nonzero value => exact value

theorem IsOrdinal.unique {token' : Bytes} (isOrdinal : IsOrdinal n token)
    (isOrdinal' : IsOrdinal n token') : token = token' := by
  cases isOrdinal with
  | natural isWhole value =>
    cases isOrdinal' with
    | natural isWhole' value' => exact isWhole.unique isWhole' (by omega)
    | negative isWhole' nonzero value' =>
      have pos := (Reader.decimal_pos isWhole').2 nonzero
      omega
  | negative isWhole nonzero value =>
    have pos := (Reader.decimal_pos isWhole).2 nonzero
    cases isOrdinal' with
    | natural isWhole' value' => omega
    | negative isWhole' nonzero' value' => rw [isWhole.unique isWhole' (by omega)]

theorem notMem_of_isWhole {b : UInt8} (isWhole : IsWhole digits) (other : isDigit b = false) :
    b ∉ digits := by
  intro mem
  rw [isWhole.1.2 b mem] at other
  cases other

theorem IsOrdinal.isExact (isOrdinal : IsOrdinal n token) : IsExact token := by
  have low : -0x8000000000000000 ≤ n.toInt := Int64.le_toInt n
  have high : n.toInt < 0x8000000000000000 := Int64.toInt_lt n
  have value := isOrdinal.toInt_eq
  have form : point ∉ token ∧ (0x65 ∉ token ∧ 0x45 ∉ token) ∧ token ≠ [minus, zero] := by
    cases isOrdinal with
    | natural isWhole =>
      have none {b : UInt8} (other : isDigit b = false) := notMem_of_isWhole isWhole other
      refine ⟨none rfl, ⟨none rfl, none rfl⟩, ?_⟩
      rintro rfl
      exact none (b := minus) rfl List.mem_cons_self
    | @negative digits isWhole nonzero =>
      have none {b : UInt8} (other : isDigit b = false) (ne : b ≠ minus) : b ∉ minus :: digits :=
        List.not_mem_cons_of_ne_of_not_mem ne (notMem_of_isWhole isWhole other)
      exact ⟨none rfl (by decide), ⟨none rfl (by decide), none rfl (by decide)⟩,
        fun same => nonzero (List.cons.inj same).2⟩
  exact ⟨isOrdinal.isNumber, form.1, form.2.1, form.2.2, by omega, by omega⟩

theorem IsExact.exists_isWhole (exact : IsExact token) :
    ∃ digits, IsWhole digits ∧ (token = digits ∨ token = minus :: digits) := by
  obtain @⟨sign, whole, fraction, power, isSign, isWhole, isFraction, isPower⟩ := exact.isNumber
  have noFraction : fraction = [] := by
    cases isFraction with
    | none => rfl
    | digits => exact absurd (by simp) exact.noPoint
  have noPower : power = [] := by
    cases isPower with
    | none => rfl
    | digits isMark =>
      rcases isMark with rfl | rfl
      · exact absurd (by simp) exact.noPower.1
      · exact absurd (by simp) exact.noPower.2
  subst noFraction noPower
  rw [List.append_nil, List.append_nil]
  rcases isSign with rfl | rfl
  · exact ⟨whole, isWhole, .inl rfl⟩
  · exact ⟨whole, isWhole, .inr rfl⟩

theorem IsExact.isOrdinal (exact : IsExact token) :
    IsOrdinal (Int64.ofInt (integerValue token)) token := by
  have high := exact.high
  have value : (Int64.ofInt (integerValue token)).toInt = integerValue token :=
    Int64.toInt_ofInt_of_le exact.low (by omega)
  obtain ⟨digits, isWhole, rfl | rfl⟩ := exact.exists_isWhole
  · exact .natural isWhole (value.trans (integerValue_of_isWhole isWhole))
  · refine .negative isWhole (fun nothing => exact.notMinusZero ?_) value
    rw [nothing]

/-- An ordinal is the value of its text, and its text is the decimal one of the value. -/
theorem isOrdinal_iff :
    IsOrdinal n token ↔ IsExact token ∧ n = Int64.ofInt (integerValue token) := by
  constructor
  · intro isOrdinal
    exact ⟨isOrdinal.isExact, by rw [← isOrdinal.toInt_eq, Int64.ofInt_toInt]⟩
  · rintro ⟨exact, rfl⟩
    exact exact.isOrdinal

theorem IsExact.toInt_eq (exact : IsExact token) :
    (Int64.ofInt (integerValue token)).toInt = integerValue token :=
  exact.isOrdinal.toInt_eq

theorem IsExact.utf8_toString (exact : IsExact token) :
    utf8 (toString (integerValue token)) = token := by
  have written := isOrdinal_toString (Int64.ofInt (integerValue token))
  have text (n : Int64) : toString n = toString n.toInt := rfl
  rw [text, exact.toInt_eq] at written
  exact written.unique exact.isOrdinal

end ProjectClient.Json

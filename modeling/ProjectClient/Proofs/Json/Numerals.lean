import ProjectClient.Proofs.Json.Runs
import ProjectClient.Json.Record

/-! Numbers. A reader takes as many digits as there are, so that a text of the grammar is read as a
whole only where none follows. -/
namespace ProjectClient.Json

def NoDigit (rest : Bytes) : Prop :=
  ∀ b ∈ rest.head?, isDigit b = false

structure Stops (rest : Bytes) : Prop where
  digit : NoDigit rest
  point : rest.head? ≠ some point
  mark : Reader.isExponentMark rest.head? = false

theorem Ends.stops {rest : Bytes} (ends : Ends rest) : Stops rest := by
  cases rest with
  | nil => exact ⟨nofun, nofun, rfl⟩
  | cons b rest =>
    have kinds := ends b rfl
    simp only [isBlank, Bool.or_eq_true, beq_iff_eq, or_assoc] at kinds
    have stops : isDigit b = false ∧ b ≠ Json.point ∧ Reader.isExponentMark (some b) = false := by
      rcases kinds with rfl | rfl | rfl | rfl | rfl | rfl | rfl <;> decide
    exact ⟨fun _ h => by cases h; exact stops.1, by simpa using stops.2.1, stops.2.2⟩

theorem noDigit_cons {b : UInt8} {t : Bytes} : NoDigit (b :: t) ↔ isDigit b = false := by
  simp [NoDigit]

theorem noDigit_iff {rest : Bytes} : NoDigit rest ↔ ¬ rest.head?.any isDigit := by
  cases rest <;> simp [NoDigit]

theorem IsDigits.cons {t : Bytes} (h : IsDigits t) : ∃ b s, t = b :: s ∧ isDigit b := by
  obtain ⟨some, all⟩ := h
  cases t with
  | nil => exact absurd rfl some
  | cons b s => exact ⟨b, s, rfl, all b List.mem_cons_self⟩

theorem minus_ne {b : UInt8} (digit : isDigit b) : b ≠ minus := by
  rintro rfl
  cases digit

theorem isBlank_of_isDigit {b : UInt8} (digit : isDigit b) : isBlank b = false := by
  refine Bool.eq_false_iff.2 fun blank => ?_
  simp only [isBlank, Bool.or_eq_true, beq_iff_eq, or_assoc] at blank
  rcases blank with rfl | rfl | rfl | rfl <;> cases digit

theorem IsNumber.cons {t : Bytes} (isNumber : IsNumber t) :
    ∃ b s, t = b :: s ∧ (b = minus ∨ isDigit b) := by
  obtain ⟨isSign, isWhole⟩ := isNumber
  rcases isSign with rfl | rfl
  · obtain ⟨b, s, rfl, digit⟩ := isWhole.1.cons
    exact ⟨b, _, rfl, .inr digit⟩
  · exact ⟨minus, _, rfl, .inl rfl⟩

theorem IsPower.stops {t rest : Bytes} (isPower : IsPower t) (stops : Stops rest) :
    NoDigit (t ++ rest) ∧ (t ++ rest).head? ≠ some point := by
  cases isPower with
  | none => exact ⟨stops.digit, stops.point⟩
  | digits isMark => rcases isMark with rfl | rfl <;> exact ⟨noDigit_cons.2 rfl, nofun⟩

theorem IsFraction.noDigit {t rest : Bytes} (isFraction : IsFraction t)
    (noDigit : NoDigit rest) : NoDigit (t ++ rest) := by
  cases isFraction with
  | none => exact noDigit
  | digits => exact noDigit_cons.2 rfl

theorem isWhole_cons {b : UInt8} {t : Bytes} :
    IsWhole (b :: t) ↔ b = zero ∧ t = [] ∨ b ≠ zero ∧ isDigit b ∧ ∀ d ∈ t, isDigit d := by
  simp only [IsWhole, IsDigits, List.forall_mem_cons, List.head?_cons, Option.some.injEq,
    List.cons.injEq]
  constructor
  · rintro ⟨⟨-, digit, digits⟩, alone⟩
    by_cases isZero : b = zero
    · exact .inl (alone isZero)
    · exact .inr ⟨isZero, digit, digits⟩
  · rintro (⟨rfl, rfl⟩ | ⟨other, digit, digits⟩)
    · exact ⟨⟨by simp, rfl, nofun⟩, fun _ => ⟨rfl, rfl⟩⟩
    · exact ⟨⟨by simp, digit, digits⟩, fun isZero => absurd isZero other⟩

/-! ## Significands -/

def grown (value : Nat) (digits : Bytes) : Nat :=
  digits.foldl (fun value digit => value * 10 + (digit.toNat - 0x30)) value

theorem le_grown (value : Nat) (digits : Bytes) : value ≤ grown value digits := by
  induction digits generalizing value with
  | nil => exact Nat.le_refl _
  | cons digit digits ih =>
    have more := ih (value * 10 + (digit.toNat - 0x30))
    simp only [grown, List.foldl_cons] at more ⊢
    omega

/-- The digits fit as long as their value does. -/
theorem Significand.addWhole_eq {s : Significand} {digits : Bytes}
    (fits : grown s.value digits < UInt64.size) :
    s.addWhole digits = { s with value := grown s.value digits } := by
  induction digits generalizing s with
  | nil => rfl
  | cons digit digits ih =>
    have holds : s.Holds digit := Nat.lt_of_le_of_lt (le_grown _ digits) fits
    rw [addWhole, if_pos holds, ih fits]
    rfl

/-- A digit that does not fit shows in the exponent. -/
theorem Significand.fits_of_exponent {s : Significand} {digits : Bytes}
    (small : s.value < UInt64.size) (same : (s.addWhole digits).exponent = s.exponent) :
    grown s.value digits < UInt64.size := by
  induction digits generalizing s with
  | nil => exact small
  | cons digit digits ih =>
    rw [addWhole] at same
    split at same
    · rename_i holds
      exact @ih { s with value := s.push digit } holds same
    · dsimp only at same
      omega

theorem addWhole_exponent_eq_zero {digits : Bytes} :
    (Significand.addWhole {} digits).exponent = 0 ↔ Reader.decimal digits < UInt64.size := by
  constructor
  · exact Significand.fits_of_exponent (by decide)
  · intro fits
    rw [@Significand.addWhole_eq {} digits fits]

namespace Reader

variable {bytes rest : Bytes} {u : Unit}

theorem run_isDigit_eq_ok {t : Bytes} :
    run isDigit bytes = .ok (t, rest) ↔
      (∀ b ∈ t, isDigit b) ∧ bytes = t ++ rest ∧ NoDigit rest := by
  rw [run_eq_ok, and_comm (b := _ = _)]
  rfl

/-! ## Digits that are kept -/

theorem wholeDigits_zero_eq_ok {t : Bytes} :
    wholeDigits (zero :: bytes) = .ok (t, rest) ↔ [zero] = t ∧ bytes = rest ∧ NoDigit rest := by
  rw [wholeDigits, take?_bind, List.head?_cons, List.tail_cons]
  simp only [if_true, StateT.run, peek?_bind]
  cases bytes with
  | nil =>
    refine pure_eq_ok.trans (and_congr_right fun _ => ?_)
    constructor
    · rintro rfl
      exact ⟨rfl, nofun⟩
    · exact And.left
  | cons b bytes =>
    simp only [List.head?_cons, ite_throw_eq_ok, pure_eq_ok]
    constructor
    · rintro ⟨noDigit, rfl, rfl⟩
      exact ⟨rfl, rfl, noDigit_cons.2 (by simpa using noDigit)⟩
    · rintro ⟨rfl, rfl, noDigit⟩
      exact ⟨by simpa using noDigit_cons.1 noDigit, rfl, rfl⟩

theorem wholeDigits_cons_eq_ok {b : UInt8} {t : Bytes} (other : b ≠ zero) :
    wholeDigits (b :: bytes) = .ok (t, rest) ↔
      isDigit b ∧ ∃ s, t = b :: s ∧ (∀ d ∈ s, isDigit d) ∧ bytes = s ++ rest ∧ NoDigit rest := by
  rw [wholeDigits, take?_bind, List.head?_cons, List.tail_cons]
  simp only [if_neg other, StateT.run, ite_else_throw_eq_ok, bind_eq_ok, run_isDigit_eq_ok,
    pure_eq_ok]
  refine and_congr_right fun _ => ?_
  constructor
  · rintro ⟨s, _, ⟨digits, rfl, noDigit⟩, rfl, rfl⟩
    exact ⟨s, rfl, digits, rfl, noDigit⟩
  · rintro ⟨s, rfl, digits, rfl, noDigit⟩
    exact ⟨s, rest, ⟨digits, rfl, noDigit⟩, rfl, rfl⟩

theorem wholeDigits_eq_ok {t : Bytes} :
    wholeDigits bytes = .ok (t, rest) ↔ IsWhole t ∧ bytes = t ++ rest ∧ NoDigit rest := by
  constructor
  · intro h
    cases bytes with
    | nil => cases h
    | cons b bytes =>
      by_cases isZero : b = zero
      · subst isZero
        obtain ⟨rfl, rfl, noDigit⟩ := wholeDigits_zero_eq_ok.1 h
        exact ⟨isWhole_cons.2 (.inl ⟨rfl, rfl⟩), rfl, noDigit⟩
      · obtain ⟨digit, s, rfl, digits, rfl, noDigit⟩ := (wholeDigits_cons_eq_ok isZero).1 h
        exact ⟨isWhole_cons.2 (.inr ⟨isZero, digit, digits⟩), rfl, noDigit⟩
  · rintro ⟨isWhole, rfl, noDigit⟩
    obtain ⟨b, s, rfl, -⟩ := isWhole.1.cons
    rcases isWhole_cons.1 isWhole with ⟨rfl, rfl⟩ | ⟨other, digit, digits⟩
    · exact wholeDigits_zero_eq_ok.2 ⟨rfl, rfl, noDigit⟩
    · exact (wholeDigits_cons_eq_ok other).2 ⟨digit, s, rfl, digits, rfl, noDigit⟩

/-! ## Numbers that are skipped -/

theorem skipSign_eq_ok :
    skipSign bytes = .ok (u, rest) ↔
      bytes = minus :: rest ∨ bytes = rest ∧ rest.head? ≠ some minus := by
  rw [skipSign, peek?_bind, StateT.run, ite_pure_eq_ok, drop_eq_ok]
  cases bytes <;> grind

theorem skipWhole_zero_eq_ok :
    skipWhole (zero :: bytes) = .ok (u, rest) ↔ bytes = rest ∧ NoDigit rest := by
  rw [skipWhole, take?_bind, List.head?_cons, List.tail_cons]
  simp only [if_true, StateT.run, peek?_bind, ite_throw_eq_ok, pure_eq_ok, noDigit_iff]
  constructor
  · rintro ⟨noDigit, -, rfl⟩
    exact ⟨rfl, noDigit⟩
  · rintro ⟨rfl, noDigit⟩
    exact ⟨noDigit, trivial, rfl⟩

theorem skipWhole_cons_eq_ok {b : UInt8} (other : b ≠ zero) :
    skipWhole (b :: bytes) = .ok (u, rest) ↔
      isDigit b ∧ ∃ t, (∀ d ∈ t, isDigit d) ∧ bytes = t ++ rest ∧ NoDigit rest := by
  rw [skipWhole, take?_bind, List.head?_cons, List.tail_cons]
  simp only [if_neg other, StateT.run, ite_else_throw_eq_ok, bind_eq_ok, run_isDigit_eq_ok,
    pure_eq_ok]
  refine and_congr_right fun _ => ?_
  constructor
  · rintro ⟨t, _, ⟨digits, rfl, noDigit⟩, -, rfl⟩
    exact ⟨t, digits, rfl, noDigit⟩
  · rintro ⟨t, digits, rfl, noDigit⟩
    exact ⟨t, rest, ⟨digits, rfl, noDigit⟩, trivial, rfl⟩

theorem skipWhole_eq_ok :
    skipWhole bytes = .ok (u, rest) ↔ ∃ t, IsWhole t ∧ bytes = t ++ rest ∧ NoDigit rest := by
  simp only [← wholeDigits_eq_ok]
  cases bytes with
  | nil => exact ⟨nofun, nofun⟩
  | cons b bytes =>
    by_cases isZero : b = zero
    · subst isZero
      simp [skipWhole_zero_eq_ok, wholeDigits_zero_eq_ok]
    · simp [skipWhole_cons_eq_ok isZero, wholeDigits_cons_eq_ok isZero]

theorem someDigits_eq_ok {e : Error} :
    (do let digits ← run isDigit; if digits.isEmpty then throw e : Reader Unit) bytes =
        .ok (u, rest) ↔ ∃ t, IsDigits t ∧ bytes = t ++ rest ∧ NoDigit rest := by
  simp only [bind_eq_ok, run_isDigit_eq_ok, ite_throw_eq_ok, pure_eq_ok, List.isEmpty_iff]
  constructor
  · rintro ⟨t, _, ⟨digits, rfl, noDigit⟩, some, -, rfl⟩
    exact ⟨t, ⟨some, digits⟩, rfl, noDigit⟩
  · rintro ⟨t, ⟨some, digits⟩, rfl, noDigit⟩
    exact ⟨t, rest, ⟨digits, rfl, noDigit⟩, some, trivial, rfl⟩

theorem skipPowerSign_eq_ok :
    skipPowerSign bytes = .ok (u, rest) ↔
      bytes = 0x2b :: rest ∨ bytes = minus :: rest ∨
        bytes = rest ∧ rest.head? ≠ some 0x2b ∧ rest.head? ≠ some minus := by
  rw [skipPowerSign, peek?_bind, StateT.run, ite_pure_eq_ok, drop_eq_ok]
  cases bytes <;> grind

theorem skipPower_eq_ok :
    skipPower bytes = .ok (u, rest) ↔
      ∃ sign t, (sign = [] ∨ sign = [0x2b] ∨ sign = [minus]) ∧ IsDigits t ∧
        bytes = sign ++ t ++ rest ∧ NoDigit rest := by
  rw [skipPower, bind_eq_ok]
  simp only [skipPowerSign_eq_ok, someDigits_eq_ok]
  constructor
  · rintro ⟨-, _, rfl | rfl | ⟨rfl, -⟩, t, digits, rfl, noDigit⟩
    · exact ⟨[0x2b], t, .inr (.inl rfl), digits, rfl, noDigit⟩
    · exact ⟨[minus], t, .inr (.inr rfl), digits, rfl, noDigit⟩
    · exact ⟨[], t, .inl rfl, digits, rfl, noDigit⟩
  · rintro ⟨sign, t, isSign, digits, rfl, noDigit⟩
    refine ⟨(), t ++ rest, ?_, t, digits, rfl, noDigit⟩
    rcases isSign with rfl | rfl | rfl
    · obtain ⟨b, s, rfl, digit⟩ := digits.cons
      refine .inr (.inr ⟨rfl, ?_, ?_⟩) <;>
      · rintro h
        cases h
        cases digit
    · exact .inl rfl
    · exact .inr (.inl rfl)

theorem skipFraction_eq_ok :
    skipFraction bytes = .ok (u, rest) ↔
      ∃ t, IsFraction t ∧ bytes = t ++ rest ∧ (t = [] → rest.head? ≠ some point) ∧
        (t ≠ [] → NoDigit rest) := by
  rw [skipFraction, peek?_bind, StateT.run, ite_pure_eq_ok, drop_bind, someDigits_eq_ok]
  constructor
  · rintro (⟨isPoint, t, digits, same, noDigit⟩ | ⟨other, rfl⟩)
    · obtain ⟨bytes, rfl⟩ := List.head?_eq_some_iff.1 isPoint
      cases same
      exact ⟨point :: t, .digits digits, rfl, nofun, fun _ => noDigit⟩
    · exact ⟨[], .none, rfl, fun _ => other, fun some => absurd rfl some⟩
  · rintro ⟨t, isFraction, rfl, ifNone, ifSome⟩
    cases isFraction with
    | none => exact .inr ⟨ifNone rfl, rfl⟩
    | digits digits => exact .inl ⟨rfl, _, digits, rfl, ifSome nofun⟩

theorem isExponentMark_iff {b : UInt8} :
    isExponentMark (some b) ↔ b = 0x65 ∨ b = 0x45 := by
  simp [isExponentMark]

theorem skipExponent_eq_ok :
    skipExponent bytes = .ok (u, rest) ↔
      ∃ t, IsPower t ∧ bytes = t ++ rest ∧ (t = [] → isExponentMark rest.head? = false) ∧
        (t ≠ [] → NoDigit rest) := by
  rw [skipExponent, peek?_bind, StateT.run, ite_pure_eq_ok, drop_bind, skipPower_eq_ok]
  constructor
  · rintro (⟨isMark, sign, t, isSign, digits, same, noDigit⟩ | ⟨other, rfl⟩)
    · cases bytes with
      | nil => cases isMark
      | cons b bytes =>
        cases same
        exact ⟨b :: (sign ++ t), .digits (isExponentMark_iff.1 isMark) isSign digits, rfl, nofun,
          fun _ => noDigit⟩
    · exact ⟨[], .none, rfl, fun _ => by simpa using other, fun some => absurd rfl some⟩
  · rintro ⟨t, isPower, rfl, ifNone, ifSome⟩
    cases isPower with
    | none => exact .inr ⟨by simpa using ifNone rfl, rfl⟩
    | digits isMark isSign digits =>
      exact .inl ⟨isExponentMark_iff.2 isMark, _, _, isSign, digits, rfl, ifSome nofun⟩

theorem isNumber_of_skipNumber (h : skipNumber bytes = .ok (u, rest)) :
    ∃ t, IsNumber t ∧ bytes = t ++ rest := by
  simp only [skipNumber, bind_eq_ok, skipSign_eq_ok, skipWhole_eq_ok, skipFraction_eq_ok,
    skipExponent_eq_ok] at h
  obtain ⟨-, _, sign, -, _, ⟨whole, isWhole, rfl, -⟩, -, _, ⟨fraction, isFraction, rfl, -⟩, power,
    isPower, rfl, -⟩ := h
  obtain ⟨sign, isSign, rfl⟩ : ∃ sign, (sign = [] ∨ sign = [minus]) ∧
      bytes = sign ++ (whole ++ (fraction ++ (power ++ rest))) := by
    rcases sign with rfl | ⟨rfl, -⟩
    · exact ⟨[minus], .inr rfl, rfl⟩
    · exact ⟨[], .inl rfl, rfl⟩
  exact ⟨_, .parts isSign isWhole isFraction isPower, by simp⟩

theorem skipNumber_of_isNumber {t : Bytes} (isNumber : IsNumber t) (stops : Stops rest) :
    skipNumber (t ++ rest) = .ok ((), rest) := by
  simp only [skipNumber, bind_eq_ok, skipSign_eq_ok, skipWhole_eq_ok, skipFraction_eq_ok,
    skipExponent_eq_ok]
  obtain @⟨sign, whole, fraction, power, isSign, isWhole, isFraction, isPower⟩ := isNumber
  obtain ⟨noDigit, noPoint⟩ := isPower.stops stops
  refine ⟨(), whole ++ (fraction ++ (power ++ rest)), ?_, (), fraction ++ (power ++ rest),
    ⟨whole, isWhole, rfl, isFraction.noDigit noDigit⟩, (), power ++ rest,
    ⟨fraction, isFraction, rfl, fun _ => noPoint, fun _ => noDigit⟩,
    power, isPower, rfl, fun _ => stops.mark, fun _ => stops.digit⟩
  rcases isSign with rfl | rfl
  · obtain ⟨b, s, rfl, digit⟩ := isWhole.1.cons
    refine .inr ⟨by simp, fun isMinus => ?_⟩
    cases isMinus
    cases digit
  · exact .inl (by simp)

/-! ## Integers -/

theorem floatOf_ne_ok {isNegative : Bool} {s : Significand} {n : Number}
    (exact : ∀ x, n ≠ .float x) : floatOf isNegative s bytes ≠ .ok (n, rest) := by
  intro h
  rw [floatOf, bind_eq_ok] at h
  obtain ⟨s, _, -, h⟩ := h
  cases float : s.toFloat? with
  | none =>
    rw [float] at h
    exact throw_ne_ok h
  | some x =>
    rw [float] at h
    exact exact _ (pure_eq_ok.1 h).1.symm

theorem isWhole_of_unsigned {isNegative : Bool} {n : Number} (exact : ∀ x, n ≠ .float x)
    (h : unsigned isNegative bytes = .ok (n, rest)) :
    ∃ t, IsWhole t ∧ bytes = t ++ rest ∧
      integerOf isNegative (Significand.addWhole {} t) = some n := by
  rw [unsigned, bind_eq_ok] at h
  obtain ⟨t, _, digits, h⟩ := h
  obtain ⟨isWhole, rfl, -⟩ := wholeDigits_eq_ok.1 digits
  rw [peek?_bind, StateT.run] at h
  split at h
  · rw [drop_bind, bind_eq_ok] at h
    obtain ⟨_, _, -, h⟩ := h
    exact absurd h (floatOf_ne_ok exact)
  · rw [peek?_bind, StateT.run] at h
    split at h
    · exact absurd h (floatOf_ne_ok exact)
    · cases integer : integerOf isNegative (Significand.addWhole {} t) with
      | none =>
        rw [integer] at h
        exact absurd h (floatOf_ne_ok exact)
      | some m =>
        rw [integer] at h
        obtain ⟨rfl, rfl⟩ := pure_eq_ok.1 h
        exact ⟨t, isWhole, rfl, integer⟩

theorem unsigned_of_isWhole {isNegative : Bool} {n : Number} {t : Bytes} (isWhole : IsWhole t)
    (stops : Stops rest) (integer : integerOf isNegative (Significand.addWhole {} t) = some n) :
    unsigned isNegative (t ++ rest) = .ok (n, rest) := by
  refine bind_eq_ok.2 ⟨t, rest, wholeDigits_eq_ok.2 ⟨isWhole, rfl, stops.digit⟩, ?_⟩
  rw [peek?_bind, if_neg stops.point, StateT.run, peek?_bind, if_neg (by simp [stops.mark]),
    integer]
  rfl

theorem integerOf_addWhole (isNegative : Bool) (digits : Bytes) :
    integerOf isNegative (Significand.addWhole {} digits) =
      if decimal digits < UInt64.size then integerOf isNegative ⟨decimal digits, 0⟩ else none := by
  split
  · rename_i fits
    rw [@Significand.addWhole_eq {} digits fits]
    rfl
  · rename_i large
    rw [← addWhole_exponent_eq_zero] at large
    rw [integerOf, if_pos large]

theorem decimal_pos {digits : Bytes} (isWhole : IsWhole digits) :
    0 < decimal digits ↔ digits ≠ [zero] := by
  obtain ⟨b, t, rfl, -⟩ := isWhole.1.cons
  rcases isWhole_cons.1 isWhole with ⟨rfl, rfl⟩ | ⟨other, digit, -⟩
  · decide
  · have first : 0 < b.toNat - 0x30 := by
      simp only [isDigit, Bool.and_eq_true, decide_eq_true_eq, UInt8.le_iff_toNat_le] at digit
      rw [ne_eq, ← UInt8.toNat_inj] at other
      have low : 0x30 ≤ b.toNat := digit.1
      have notZero : b.toNat ≠ 0x30 := other
      omega
    have grows : b.toNat - 0x30 ≤ decimal (b :: t) := by
      simpa [decimal, grown] using le_grown (b.toNat - 0x30) t
    refine iff_of_true (by omega) fun same => other (List.cons.inj same).1

inductive IsInteger : Number → Bytes → Prop where
  | natural {t : Bytes} (isWhole : IsWhole t) (small : decimal t < UInt64.size) :
    IsInteger (.natural (decimal t)) t
  | negative {t : Bytes} (isWhole : IsWhole t) (some : 0 < decimal t)
    (small : decimal t ≤ signLimit) : IsInteger (.negative (decimal t)) (minus :: t)

theorem mismatch_fails {α : Type} (expected : Expected) :
    Fails (mismatch expected : Reader α) := by
  have named {reader : Reader Found} :
      Fails (reader >>= fun found => throw (.invalidType found expected) : Reader α) :=
    .bind fun _ => fails_throw
  refine .bind fun b => ?_
  split
  · exact .bind fun _ => .bind fun _ => named
  · exact .bind fun _ => .bind fun _ => named
  · exact .bind fun _ => .bind fun _ => named
  · exact .bind fun _ => .bind fun _ => named
  · exact named
  · exact named
  · split
    · exact .bind fun _ => named
    · exact named
  · exact named

theorem number_minus : number (minus :: bytes) = unsigned true bytes := rfl

theorem number_other (other : bytes.head? ≠ some minus) :
    number bytes = unsigned false bytes := by
  rw [number, peek?_bind, if_neg other]
  rfl

theorem isInteger_of_number {m : Number} (exact : ∀ x, m ≠ .float x)
    (h : number bytes = .ok (m, rest)) : ∃ t, IsInteger m t ∧ bytes = t ++ rest := by
  by_cases signed : bytes.head? = some minus
  · obtain ⟨bytes, rfl⟩ := List.head?_eq_some_iff.1 signed
    rw [number_minus] at h
    obtain ⟨t, isWhole, rfl, integer⟩ := isWhole_of_unsigned exact h
    rw [integerOf_addWhole] at integer
    simp only [integerOf, Option.ite_none_right_eq_some, if_true, ne_eq, not_true_eq_false,
      if_false, Option.some.injEq] at integer
    obtain ⟨-, ⟨some, small⟩, rfl⟩ := integer
    exact ⟨minus :: t, .negative isWhole some small, rfl⟩
  · rw [number_other signed] at h
    obtain ⟨t, isWhole, rfl, integer⟩ := isWhole_of_unsigned exact h
    rw [integerOf_addWhole] at integer
    simp only [integerOf, Option.ite_none_right_eq_some, ne_eq, not_true_eq_false, if_false,
      Option.some.injEq, Bool.false_eq_true] at integer
    obtain ⟨small, rfl⟩ := integer
    exact ⟨t, .natural isWhole small, rfl⟩

theorem number_of_isInteger {m : Number} {t : Bytes} (isInteger : IsInteger m t)
    (stops : Stops rest) : number (t ++ rest) = .ok (m, rest) := by
  cases isInteger with
  | natural isWhole small =>
    obtain ⟨b, s, rfl, digit⟩ := isWhole.1.cons
    rw [number_other (by simpa using minus_ne digit)]
    refine unsigned_of_isWhole isWhole stops ?_
    rw [integerOf_addWhole, if_pos small]
    rfl
  | @negative t isWhole some small =>
    rw [List.cons_append, number_minus]
    refine unsigned_of_isWhole isWhole stops ?_
    have fits : decimal t < UInt64.size := Nat.lt_of_le_of_lt small (by decide)
    rw [integerOf_addWhole, if_pos fits, integerOf, if_neg (by simp), if_pos rfl,
      if_pos ⟨some, small⟩]

theorem isOrdinal_of_ordinal {n : Int64} (h : ordinal bytes = .ok (n, rest)) :
    ∃ blanks t, AllBlank blanks ∧ IsOrdinal n t ∧ bytes = blanks ++ (t ++ rest) := by
  rw [ordinal, next?_bind_eq_ok (fun _ => throw_ne_ok)] at h
  obtain ⟨blanks, c, t, blank, solid, rfl, h⟩ := h
  rw [StateT.run] at h
  dsimp only at h
  split at h
  · obtain ⟨m, mid, read, h⟩ := bind_eq_ok.1 h
    cases m with
    | natural value =>
      obtain ⟨small, h⟩ := ite_else_throw_eq_ok.1 h
      obtain ⟨rfl, rfl⟩ := pure_eq_ok.1 h
      obtain ⟨t, isInteger, same⟩ := isInteger_of_number (by simp) read
      cases isInteger with
      | natural isWhole =>
        exact ⟨blanks, t, blank, .natural isWhole (Int64.toInt_ofNat_of_lt small), by simp [same]⟩
    | negative magnitude =>
      obtain ⟨rfl, rfl⟩ := pure_eq_ok.1 h
      obtain ⟨t, isInteger, same⟩ := isInteger_of_number (by simp) read
      cases isInteger with
      | negative isWhole some small =>
        refine ⟨blanks, _, blank, .negative isWhole ((decimal_pos isWhole).1 some) ?_,
          by simp [same]⟩
        have limit : signLimit = 0x8000000000000000 := rfl
        exact Int64.toInt_ofInt_of_le (by omega) (by omega)
    | float value => exact absurd h throw_ne_ok
  · exact absurd h (mismatch_fails _ _ _ _)

theorem ordinal_of_isOrdinal {n : Int64} {blanks t : Bytes} (blank : AllBlank blanks)
    (isOrdinal : IsOrdinal n t) (stops : Stops rest) :
    ordinal (blanks ++ (t ++ rest)) = .ok (n, rest) := by
  rw [ordinal, next?_bind_eq_ok (fun _ => throw_ne_ok)]
  have high := Int64.toInt_lt n
  have low := Int64.le_toInt n
  have limit : signLimit = 0x8000000000000000 := rfl
  have size : UInt64.size = 0x10000000000000000 := rfl
  cases isOrdinal with
  | natural isWhole value =>
    obtain ⟨b, s, rfl, digit⟩ := isWhole.1.cons
    have small : decimal (b :: s) < signLimit := by omega
    refine ⟨blanks, b, s ++ rest, blank, ?_, by simp, ?_⟩
    · exact isBlank_of_isDigit digit
    · rw [StateT.run]
      dsimp only
      rw [if_pos (.inr digit)]
      refine bind_eq_ok.2
        ⟨_, rest, number_of_isInteger (.natural isWhole (by omega)) stops, ?_⟩
      refine ite_else_throw_eq_ok.2 ⟨small, pure_eq_ok.2 ⟨?_, rfl⟩⟩
      rw [← Int64.toInt_inj, Int64.toInt_ofNat_of_lt small, value]
  | @negative digits isWhole nonzero value =>
    have some := (decimal_pos isWhole).2 nonzero
    refine ⟨blanks, minus, digits ++ rest, blank, rfl, by simp, ?_⟩
    rw [StateT.run]
    dsimp only
    rw [if_pos (.inl rfl)]
    refine bind_eq_ok.2
      ⟨_, rest, number_of_isInteger (.negative isWhole some (by omega)) stops, ?_⟩
    refine pure_eq_ok.2 ⟨?_, rfl⟩
    rw [← Int64.toInt_inj, ← value, Int64.ofInt_toInt]

end Reader

end ProjectClient.Json

/-! The shortest decimal that names a binary number: of the decimals that round to it, one with the
fewest digits, and of several such the nearest. Of two that are equally near, it is the one whose
last digit is even. All arithmetic is exact. -/
namespace ProjectClient.Decimal

/-- A positive binary number with the bounds of what rounds to it, as fractions of one divisor. -/
structure Binary where
  below : Nat
  value : Nat
  above : Nat
  divisor : Nat
  /-- The bounds themselves round to the number. -/
  closed : Bool

/-- The weight of the sign among the bits of a float, above exponent and fraction (2⁶³). -/
def signBit : Nat := 0x8000000000000000

def exponentBit : Nat := 0x10000000000000

def Binary.ofFloat? (x : Float) : Option Binary :=
  let bits := x.toBits.toNat % signBit
  let fraction := bits % exponentBit
  let biased := bits / exponentBit
  let significand := if biased = 0 then fraction else fraction + exponentBit
  -- In units of a quarter of the last place. Below a power of two the gap is half as wide.
  let exponent : Int := (max biased 1 : Nat) - 1077
  let gap := if fraction = 0 ∧ 1 < biased then 1 else 2
  let scale := Nat.pow 2 exponent.toNat
  if significand = 0 then none
  else some {
    below := (4 * significand - gap) * scale
    value := 4 * significand * scale
    above := (4 * significand + 2) * scale
    divisor := Nat.pow 2 (-exponent).toNat
    closed := significand % 2 = 0 }

/-- Digits with a power of ten: `digits · 10 ^ exponent`. -/
structure Digits where
  digits : Nat
  exponent : Int
deriving DecidableEq

/-- The multiple of a unit that is nearest to a value, given by the whole units in the value and the
rest. A value halfway between two goes to the even one. -/
def nearest (floor rest unit : Nat) : Nat :=
  if 2 * rest < unit ∨ (2 * rest = unit ∧ floor % 2 = 0) then floor else floor + 1

def Binary.onGrid? (b : Binary) (exponent : Int) : Option Digits :=
  let up := Nat.pow 10 (-exponent).toNat
  let unit := b.divisor * Nat.pow 10 exponent.toNat
  let fits (n : Nat) : Bool :=
    if b.closed then b.below * up ≤ n * unit && n * unit ≤ b.above * up
    else b.below * up < n * unit && n * unit < b.above * up
  let floor := b.value * up / unit
  let rest := b.value * up % unit
  match fits floor, fits (floor + 1) with
  | true, true => some ⟨nearest floor rest unit, exponent⟩
  | true, false => some ⟨floor, exponent⟩
  | false, true => some ⟨floor + 1, exponent⟩
  | false, false => none

/-- The decimals of a float reach from 10 ^ 309 down to 10 ^ -324. -/
def exponents : List Int :=
  (List.range 650).map fun n : Nat => (309 : Int) - n

def shortest (x : Float) : Digits :=
  match Binary.ofFloat? x with
  | none => ⟨0, 0⟩
  | some b => (exponents.findSome? b.onGrid?).getD ⟨0, 0⟩

end ProjectClient.Decimal

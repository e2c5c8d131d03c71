import ProjectClient.Json.Reader

/-! Numbers. Integers of 64 bits are exact, and every other number is a float. -/
namespace ProjectClient.Json

inductive Number where
  | natural (value : Nat)
  | negative (magnitude : Nat)
  | float (value : Float)

def Number.found : Number → Found
  | .natural value => .integer value
  | .negative magnitude => .integer (-(magnitude : Int))
  | .float value => .float value

/-- Decimal digits as a significand below 2⁶⁴ and a power of ten. -/
structure Significand where
  value : Nat := 0
  exponent : Int := 0

namespace Significand

def Holds (s : Significand) (digit : UInt8) : Prop :=
  s.value * 10 + (digit.toNat - 0x30) < UInt64.size

instance (s : Significand) (digit : UInt8) : Decidable (s.Holds digit) :=
  inferInstanceAs (Decidable (_ < _))

def push (s : Significand) (digit : UInt8) : Nat :=
  s.value * 10 + (digit.toNat - 0x30)

/-- Adds the digits before the point. From the first that does not fit on, they only count. -/
def addWhole (s : Significand) : Bytes → Significand
  | [] => s
  | digit :: digits =>
    if s.Holds digit then addWhole { s with value := s.push digit } digits
    else { s with exponent := s.exponent + (digits.length + 1) }

/-- Adds the digits after the point. From the first that does not fit on, they are dropped. -/
def addFraction (s : Significand) : Bytes → Significand
  | [] => s
  | digit :: digits =>
    if s.Holds digit then addFraction ⟨s.push digit, s.exponent - 1⟩ digits else s

def powerOfTen (n : Nat) : Float := Float.ofScientific 1 false n

/-- The float of a significand and a power of ten, rounded once for the significand and once for
each scaling. There is none beyond the largest float. -/
def toFloat? (s : Significand) : Option Float :=
  let x := (UInt64.ofNat s.value).toFloat
  let down := (-s.exponent).toNat
  if 0 ≤ s.exponent then
    if s.value = 0 then some x
    else if s.exponent ≤ 308 then
      let scaled := x * powerOfTen s.exponent.toNat
      if scaled.isInf then none else some scaled
    else none
  else if down ≤ 308 then some (x / powerOfTen down)
  else if down ≤ 616 then some (x / powerOfTen 308 / powerOfTen (down - 308))
  else some 0

end Significand

namespace Reader

def wholeDigits : Reader Bytes := do
  match ← take? with
  | none => throw .endInValue
  | some first =>
    if first = zero then
      match ← peek? with
      | some b => if isDigit b then throw .invalidNumber else return [first]
      | none => return [first]
    else if isDigit first then return first :: (← run isDigit)
    else throw .invalidNumber

def fractionDigits : Reader Bytes := do
  let digits ← run isDigit
  if digits.isEmpty then
    match ← peek? with
    | none => throw .endInValue
    | some _ => throw .invalidNumber
  else return digits

def decimal (digits : Bytes) : Nat :=
  digits.foldl (fun value digit => value * 10 + (digit.toNat - 0x30)) 0

def power : Reader Int := do
  let sign ← peek?
  if sign = some 0x2b ∨ sign = some minus then drop
  match ← take? with
  | none => throw .endInValue
  | some first =>
    if isDigit first then
      let magnitude := decimal (first :: (← run isDigit))
      return if sign = some minus then -(magnitude : Int) else magnitude
    else throw .invalidNumber

def isExponentMark (b : Option UInt8) : Bool :=
  b == some 0x65 || b == some 0x45

def withPower (s : Significand) : Reader Significand := do
  if isExponentMark (← peek?) then
    drop
    let power ← power
    return { s with exponent := s.exponent + power }
  else return s

def floatOf (isNegative : Bool) (s : Significand) : Reader Number := do
  match (← withPower s).toFloat? with
  | none => throw .numberOutOfRange
  | some x => return .float (if isNegative then -x else x)

/-- The magnitude of the lowest integer of 64 bits with sign (2⁶³). The highest is one less. -/
def signLimit : Nat := 0x8000000000000000

/-- A number without a point and a power of ten. Minus zero is a float. -/
def integerOf (isNegative : Bool) (s : Significand) : Option Number :=
  if s.exponent ≠ 0 then none
  else if isNegative then
    if 0 < s.value ∧ s.value ≤ signLimit then some (.negative s.value) else none
  else some (.natural s.value)

def unsigned (isNegative : Bool) : Reader Number := do
  let digits ← wholeDigits
  let s := Significand.addWhole {} digits
  if (← peek?) = some point then do
    drop
    let digits ← fractionDigits
    floatOf isNegative (s.addFraction digits)
  else if isExponentMark (← peek?) then floatOf isNegative s
  else
    match integerOf isNegative s with
    | some number => return number
    | none => floatOf isNegative s

def number : Reader Number := do
  if (← peek?) = some minus then
    drop
    unsigned true
  else unsigned false

def skipPowerSign : Reader Unit := do
  let sign ← peek?
  if sign = some 0x2b ∨ sign = some minus then drop

def skipPower : Reader Unit := do
  skipPowerSign
  let digits ← run isDigit
  if digits.isEmpty then throw .invalidNumber

def skipSign : Reader Unit := do
  if (← peek?) = some minus then drop

def skipWhole : Reader Unit := do
  match ← take? with
  | none => throw .invalidNumber
  | some first =>
    if first = zero then
      if ((← peek?).any isDigit) then throw .invalidNumber
    else if isDigit first then
      let _ ← run isDigit
    else throw .invalidNumber

def skipFraction : Reader Unit := do
  if (← peek?) = some point then
    drop
    let digits ← run isDigit
    if digits.isEmpty then throw .invalidNumber

def skipExponent : Reader Unit := do
  if isExponentMark (← peek?) then
    drop
    skipPower

def skipNumber : Reader Unit := do
  skipSign
  skipWhole
  skipFraction
  skipExponent

end Reader

end ProjectClient.Json

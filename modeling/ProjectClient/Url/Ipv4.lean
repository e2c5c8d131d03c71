import ProjectClient.Text.Split
import ProjectClient.Url.Percent

/-! IPv4 addresses. A part may be decimal, octal after `0` or hexadecimal after `0x`, and the last
part fills all the bytes that the parts before it leave. -/
namespace ProjectClient.Url

def valueInBase? (base : Nat) (digits : List Char) : Option Nat :=
  digits.foldlM (fun value c => do
    let digit ← hexValue? c
    if digit < base then some (value * base + digit) else none) 0

/-- The value of one part. A lone `0x` is zero. -/
def ipv4Number? : List Char → Option Nat
  | [] => none
  | '0' :: 'x' :: digits | '0' :: 'X' :: digits => valueInBase? 16 digits
  | ['0'] => some 0
  | '0' :: digits => valueInBase? 8 digits
  | digits => valueInBase? 10 digits

def hostParts (host : List Char) : List (List Char) :=
  let parts := Text.splitOn (· == '.') host
  if parts.getLast? = some [] then parts.dropLast else parts

/-- A host whose last part is a number has to be an IPv4 address. -/
def EndsInNumber (host : List Char) : Prop :=
  ∃ part ∈ (hostParts host).getLast?,
    (part ≠ [] ∧ part.all Char.isDigit) ∨ (ipv4Number? part).isSome

instance (host : List Char) : Decidable (EndsInNumber host) :=
  match h : (hostParts host).getLast? with
  | none => isFalse (by simp [EndsInNumber, h])
  | some part =>
    decidable_of_iff ((part ≠ [] ∧ part.all Char.isDigit) ∨ (ipv4Number? part).isSome)
      (by simp [EndsInNumber, h])

def ipv4Address? (host : List Char) : Option UInt32 := do
  let numbers ← (hostParts host).mapM ipv4Number?
  let last ← numbers.getLast?
  let leading := numbers.dropLast
  if numbers.length ≤ 4 ∧ leading.all (· < 256) ∧ last < Nat.pow 256 (4 - leading.length) then
    let high := leading.foldl (fun value n => value * 256 + n) 0
    return UInt32.ofNat (high * Nat.pow 256 (4 - leading.length) + last)
  else none

def ipv4Text (address : UInt32) : String :=
  let byte (weight : Nat) : String := toString (address.toNat / weight % 256)
  byte 0x1000000 ++ "." ++ byte 0x10000 ++ "." ++ byte 0x100 ++ "." ++ byte 1

end ProjectClient.Url

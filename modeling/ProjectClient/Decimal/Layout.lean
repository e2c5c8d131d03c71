import ProjectClient.Decimal.Shortest

/-! A float as text. From 0.00001 up to but not including 10 ^ 16 the point stands among the digits,
and there is at least one digit on either side of it. Outside that range there is one digit before
the point and a power of ten after the digits, as in `1.5e+16` and `1e-7`. -/
namespace ProjectClient.Decimal

def zeros (n : Nat) : String :=
  String.ofList (List.replicate n '0')

/-- The text without a sign. The point comes after the first `point` digits. -/
def Digits.text (d : Digits) : String :=
  let digits := (Nat.toDigits 10 d.digits)
  let point : Int := digits.length + d.exponent
  if 0 ≤ d.exponent ∧ point ≤ 16 then
    String.ofList digits ++ zeros d.exponent.toNat ++ ".0"
  else if 0 < point ∧ point ≤ 16 then
    String.ofList (digits.take point.toNat) ++ "." ++ String.ofList (digits.drop point.toNat)
  else if -5 < point ∧ point ≤ 0 then
    "0." ++ zeros (-point).toNat ++ String.ofList digits
  else
    let tail := digits.drop 1
    let mantissa := String.ofList (digits.take 1) ++
      if tail.isEmpty then "" else "." ++ String.ofList tail
    let power := point - 1
    mantissa ++ (if power < 0 then "e-" else "e+") ++ toString power.natAbs

def text (x : Float) : String :=
  (if x.toBits.toNat < signBit then "" else "-") ++ (shortest x).text

end ProjectClient.Decimal

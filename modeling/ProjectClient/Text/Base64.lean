/-! Base 64: every three bytes are written as four characters of six bits. A shorter rest is filled
with zero bits, and `=` takes the place of each character that would hold nothing else. -/
namespace ProjectClient.Text

def base64Char (n : Nat) : Char :=
  if n < 26 then Char.ofNat (0x41 + n)
  else if n < 52 then Char.ofNat (0x61 + (n - 26))
  else if n < 62 then Char.ofNat (0x30 + (n - 52))
  else if n = 62 then '+'
  else '/'

def base64Group (bits : Nat) : List Char :=
  [bits / 0x40000, bits / 0x1000 % 64, bits / 64 % 64, bits % 64].map base64Char

def base64 : List UInt8 → List Char
  | [] => []
  | [a] => (base64Group (a.toNat * 0x10000)).take 2 ++ ['=', '=']
  | [a, b] => (base64Group (a.toNat * 0x10000 + b.toNat * 0x100)).take 3 ++ ['=']
  | a :: b :: c :: rest =>
    base64Group (a.toNat * 0x10000 + b.toNat * 0x100 + c.toNat) ++ base64 rest

end ProjectClient.Text

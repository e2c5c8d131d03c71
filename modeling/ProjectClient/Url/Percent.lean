/-! Percent encoding: a byte that may not stand for itself is written as `%` and two hexadecimal
digits. Decoding leaves a `%` alone that no two such digits follow. -/
namespace ProjectClient.Url

def upperHexDigit (n : Nat) : Char :=
  if n < 10 then Char.ofNat (0x30 + n) else Char.ofNat (0x41 + (n - 10))

def percentByte (b : UInt8) : List Char :=
  ['%', upperHexDigit (b.toNat / 16), upperHexDigit (b.toNat % 16)]

def percentChar (set : Char → Bool) (c : Char) : List Char :=
  if set c then (String.utf8EncodeChar c).flatMap percentByte else [c]

def percentEncode (set : Char → Bool) (text : List Char) : String :=
  String.ofList (text.flatMap (percentChar set))

def hexValue? (c : Char) : Option Nat :=
  if c.isDigit then some (c.toNat - 0x30)
  else if 'a' ≤ c ∧ c ≤ 'f' then some (c.toNat - 0x61 + 10)
  else if 'A' ≤ c ∧ c ≤ 'F' then some (c.toNat - 0x41 + 10)
  else none

def percentDecode : List Char → List UInt8
  | [] => []
  | '%' :: a :: b :: rest =>
    match hexValue? a, hexValue? b with
    | some high, some low => UInt8.ofNat (high * 16 + low) :: percentDecode rest
    | _, _ => 0x25 :: percentDecode (a :: b :: rest)
  | c :: rest => String.utf8EncodeChar c ++ percentDecode rest

def isControlOrForeign (c : Char) : Bool :=
  c.toNat < 0x20 || 0x7f ≤ c.toNat

def inPathSet (c : Char) : Bool :=
  isControlOrForeign c || " \"#<>?\x60\x7b\x7d".toList.contains c

/-- What is encoded in a segment that is added to a path as a whole. -/
def inSegmentSet (c : Char) : Bool :=
  inPathSet c || "%/\\".toList.contains c

def inUserinfoSet (c : Char) : Bool :=
  inPathSet c || "/:;=@[\\]^|".toList.contains c

end ProjectClient.Url

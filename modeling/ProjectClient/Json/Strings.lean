import ProjectClient.Json.Reader
import ProjectClient.Text.Utf8

/-! Strings. A string that is used has to be valid UTF-8 with paired surrogate escapes; one that is
skipped does not. Each reader starts after the opening quotation mark. -/
namespace ProjectClient.Json.Reader

def hexDigit? (b : UInt8) : Option Nat :=
  if isDigit b then some (b.toNat - 0x30)
  else if 0x61 ≤ b ∧ b ≤ 0x66 then some (b.toNat - 0x61 + 10)
  else if 0x41 ≤ b ∧ b ≤ 0x46 then some (b.toNat - 0x41 + 10)
  else none

def codeUnit : Reader Nat
  | a :: b :: c :: d :: rest =>
    match hexDigit? a, hexDigit? b, hexDigit? c, hexDigit? d with
    | some a, some b, some c, some d => .ok (((a * 16 + b) * 16 + c) * 16 + d, rest)
    | _, _, _, _ => .error .invalidEscape
  | _ => .error .endInString

def letterEscape? (b : UInt8) : Option UInt8 :=
  if b = quotationMark ∨ b = backslash ∨ b = 0x2f then some b
  else if b = 0x62 then some 0x08
  else if b = letterF then some 0x0c
  else if b = letterN then some 0x0a
  else if b = 0x72 then some 0x0d
  else if b = letterT then some 0x09
  else none

def isFirstHalf (unit : Nat) : Bool := 0xd800 ≤ unit && unit < 0xdc00

def isSecondHalf (unit : Nat) : Bool := 0xdc00 ≤ unit && unit < 0xe000

def pairByte (b : UInt8) : Reader Unit := do
  match ← take? with
  | none => throw .endInString
  | some c => if c = b then pure () else throw .unfinishedPair

/-- The character that one escaped code unit or a pair of them stands for. -/
def codeUnits : Reader Char := do
  let unit ← codeUnit
  if isSecondHalf unit then throw .loneSurrogate
  else if isFirstHalf unit then do
    pairByte backslash
    pairByte letterU
    let second ← codeUnit
    if isSecondHalf second then
      return Char.ofNat (0x10000 + (unit - 0xd800) * 0x400 + (second - 0xdc00))
    else throw .loneSurrogate
  else return Char.ofNat unit

def escape : Reader Bytes := do
  match ← take? with
  | none => throw .endInString
  | some letterU => return String.utf8EncodeChar (← codeUnits)
  | some letter =>
    match letterEscape? letter with
    | some b => return [b]
    | none => throw .invalidEscape

/-- Takes one byte or escape of a string, or ends it. The bytes so far are in reverse. -/
def stringStep (reversed : Bytes) : Reader (Bytes ⊕ String) := do
  match ← take? with
  | none => throw .endInString
  | some quotationMark =>
    match Text.ofUtf8? reversed.reverse with
    | some text => return .inr text
    | none => throw .invalidCodePoint
  | some backslash => return .inl ((← escape).reverse ++ reversed)
  | some b => if b < 0x20 then throw .controlCharacter else return .inl (b :: reversed)

def string : Reader String := iterate stringStep []

def skipEscape : Reader Unit := do
  match ← take? with
  | none => throw .endInString
  | some letterU => let _ ← codeUnit
  | some letter => if (letterEscape? letter).isSome then pure () else throw .invalidEscape

def skipStringStep (_ : Unit) : Reader (Unit ⊕ Unit) := do
  match ← take? with
  | none => throw .endInString
  | some quotationMark => return .inr ()
  | some backslash => do
    skipEscape
    return .inl ()
  | some b => if b < 0x20 then throw .controlCharacter else return .inl ()

def skipString : Reader Unit := iterate skipStringStep ()

end ProjectClient.Json.Reader

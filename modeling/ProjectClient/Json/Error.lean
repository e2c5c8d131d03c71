import ProjectClient.Decimal.Layout
import ProjectClient.Text.Quoted

/-! Why a JSON text was refused, and the message for each cause. -/
namespace ProjectClient.Json

inductive Found where
  | null
  | boolean (value : Bool)
  | integer (value : Int)
  | float (value : Float)
  | string (value : String)
  | sequence
  | map

inductive Expected where
  | string
  | sequence
  | ordinal
  | record (name : String)
deriving DecidableEq

inductive Error where
  /-- The text ends where a value has to come, or within a literal. -/
  | endInValue
  | endInList
  | endInObject
  | endInString
  | expectedColon
  | expectedListCommaOrEnd
  | expectedObjectCommaOrEnd
  | expectedValue
  /-- A literal starts like `null`, `true` or `false` and goes on otherwise. -/
  | expectedIdent
  | keyNotString
  | trailingComma
  | trailingCharacters
  | invalidEscape
  | invalidNumber
  | numberOutOfRange
  | invalidCodePoint
  | controlCharacter
  /-- An escape names the second half of a surrogate pair without the first, or no second half after
  the first. -/
  | loneSurrogate
  | unfinishedPair
  | invalidType (found : Found) (expected : Expected)
  /-- An integer of 64 bits that is no signed one. -/
  | ordinalTooLarge (value : Nat)
  | invalidLength (length : Nat) (record : String) (fields : Nat)
  | missingField (key : String)
  | duplicateField (key : String)

def Found.message : Found → String
  | .null => "null"
  | .boolean value => "boolean \x60" ++ toString value ++ "\x60"
  | .integer value => "integer \x60" ++ toString value ++ "\x60"
  | .float value => "floating point \x60" ++ Decimal.text value ++ "\x60"
  | .string value => "string " ++ Text.quoted value
  | .sequence => "sequence"
  | .map => "map"

def Expected.message : Expected → String
  | .string => "a string"
  | .sequence => "a sequence"
  | .ordinal => "i64"
  | .record name => "struct " ++ name

def Error.message : Error → String
  | .endInValue => "EOF while parsing a value"
  | .endInList => "EOF while parsing a list"
  | .endInObject => "EOF while parsing an object"
  | .endInString => "EOF while parsing a string"
  | .expectedColon => "expected \x60:\x60"
  | .expectedListCommaOrEnd => "expected \x60,\x60 or \x60]\x60"
  | .expectedObjectCommaOrEnd => "expected \x60,\x60 or \x60\x7d\x60"
  | .expectedValue => "expected value"
  | .expectedIdent => "expected ident"
  | .keyNotString => "key must be a string"
  | .trailingComma => "trailing comma"
  | .trailingCharacters => "trailing characters"
  | .invalidEscape => "invalid escape"
  | .invalidNumber => "invalid number"
  | .numberOutOfRange => "number out of range"
  | .invalidCodePoint => "invalid unicode code point"
  | .controlCharacter =>
    "control character (\\u0000-\\u001F) found while parsing a string"
  | .loneSurrogate => "lone leading surrogate in hex escape"
  | .unfinishedPair => "unexpected end of hex escape"
  | .invalidType found expected =>
    "invalid type: " ++ found.message ++ ", expected " ++ expected.message
  | .ordinalTooLarge value =>
    "invalid value: " ++ (Found.integer value).message ++ ", expected " ++ Expected.ordinal.message
  | .invalidLength length record fields =>
    "invalid length " ++ toString length ++ ", expected struct " ++ record ++ " with " ++
      toString fields ++ (if fields = 1 then " element" else " elements")
  | .missingField key => "missing field \x60" ++ key ++ "\x60"
  | .duplicateField key => "duplicate field \x60" ++ key ++ "\x60"

end ProjectClient.Json

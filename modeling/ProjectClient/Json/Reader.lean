import ProjectClient.Json.Error

/-! Readers take bytes from the front of a text. The first fault in the order of the text wins. -/
namespace ProjectClient.Json

abbrev Bytes := List UInt8

abbrev Reader (α : Type) := StateT Bytes (Except Error) α

@[match_pattern] abbrev quotationMark : UInt8 := 0x22
@[match_pattern] abbrev comma : UInt8 := 0x2c
@[match_pattern] abbrev minus : UInt8 := 0x2d
@[match_pattern] abbrev point : UInt8 := 0x2e
@[match_pattern] abbrev zero : UInt8 := 0x30
@[match_pattern] abbrev colon : UInt8 := 0x3a
@[match_pattern] abbrev listStart : UInt8 := 0x5b
@[match_pattern] abbrev backslash : UInt8 := 0x5c
@[match_pattern] abbrev listEnd : UInt8 := 0x5d
@[match_pattern] abbrev letterF : UInt8 := 0x66
@[match_pattern] abbrev letterN : UInt8 := 0x6e
@[match_pattern] abbrev letterT : UInt8 := 0x74
@[match_pattern] abbrev letterU : UInt8 := 0x75
@[match_pattern] abbrev objectStart : UInt8 := 0x7b
@[match_pattern] abbrev objectEnd : UInt8 := 0x7d

def isBlank (b : UInt8) : Bool :=
  b == 0x20 || b == 0x09 || b == 0x0a || b == 0x0d

def isDigit (b : UInt8) : Bool :=
  0x30 ≤ b && b ≤ 0x39

namespace Reader

def peek? : Reader (Option UInt8) := fun bytes => .ok (bytes.head?, bytes)

def take? : Reader (Option UInt8) := fun bytes => .ok (bytes.head?, bytes.tail)

def drop : Reader Unit := fun bytes => .ok ((), bytes.tail)

def blanks : Reader Unit := fun bytes => .ok ((), bytes.dropWhile isBlank)

/-- The first byte after any blanks, left in place. -/
def next? : Reader (Option UInt8) := do
  blanks
  peek?

def run (p : UInt8 → Bool) : Reader Bytes := fun bytes => .ok (bytes.takeWhile p, bytes.dropWhile p)

def word : Bytes → Reader Unit
  | [] => pure ()
  | b :: rest => do
    match ← take? with
    | none => throw .endInValue
    | some c => if c = b then word rest else throw .expectedIdent

def restOfNull : Reader Unit := word [0x75, 0x6c, 0x6c]

def restOfTrue : Reader Unit := word [0x72, 0x75, 0x65]

def restOfFalse : Reader Unit := word [0x61, 0x6c, 0x73, 0x65]

/-- Repeats a step until it gives a result. A step that gives none has to take a byte, so there are
never more steps than bytes and one. -/
def iterate {σ α : Type} (step : σ → Reader (σ ⊕ α)) (start : σ) : Reader α := fun bytes =>
  go (bytes.length + 1) start bytes
where
  go : Nat → σ → Reader α
    | 0, _ => throw .endInValue
    | n + 1, state => do
      match ← step state with
      | .inl next => go n next
      | .inr result => pure result

/-- The value of a reader that understands the text as a whole, blanks around it apart. -/
def readAll {α : Type} (reader : Reader α) (bytes : Bytes) : Except Error α := do
  let (value, rest) ← reader bytes
  if rest.all isBlank then return value else throw .trailingCharacters

end Reader

end ProjectClient.Json

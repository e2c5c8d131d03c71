import ProjectClient.Url.Ipv4

/-! IPv6 addresses: eight pieces of 16 bits. Once in an address `::` stands for pieces of zero, and
an IPv4 address may stand for the last two. -/
namespace ProjectClient.Url

/-- One number of a dotted address within an IPv6 address: up to 255, without leading zeros. -/
def octet? (digits : List Char) : Option Nat :=
  if digits = [] ∨ ¬ digits.all Char.isDigit then none
  else if digits.length ≠ 1 ∧ digits.head? = some '0' then none
  else do
    let value ← valueInBase? 10 digits
    if value < 256 then some value else none

def dottedPieces? (text : List Char) : Option (List Nat) :=
  match (Text.splitOn (· == '.') text).mapM octet? with
  | some [a, b, c, d] => some [a * 256 + b, c * 256 + d]
  | _ => none

/-- Pieces read so far, and how many of them stand before the pieces that `::` leaves out. -/
structure Ipv6Draft where
  pieces : List Nat := []
  gap : Option Nat := none

namespace Ipv6Draft

/-- Adds the zero that every `::` stands for at least, and leaves the gap behind it. -/
def open? (draft : Ipv6Draft) : Option Ipv6Draft :=
  if draft.gap.isSome then none
  else some { pieces := draft.pieces ++ [0], gap := some (draft.pieces.length + 1) }

def push (draft : Ipv6Draft) (more : List Nat) : Ipv6Draft :=
  { draft with pieces := draft.pieces ++ more }

def finish? (draft : Ipv6Draft) : Option (List Nat) :=
  match draft.gap with
  | some gap => some (draft.pieces.take gap ++
      List.replicate (8 - draft.pieces.length) 0 ++ draft.pieces.drop gap)
  | none => if draft.pieces.length = 8 then some draft.pieces else none

def read? : Nat → Ipv6Draft → List Char → Option Ipv6Draft
  | _, draft, [] => some draft
  | 0, _, _ :: _ => none
  | room + 1, draft, ':' :: rest => do read? room (← draft.open?) rest
  | room + 1, draft, text =>
    let digits := (text.take 4).takeWhile fun c => (hexValue? c).isSome
    let piece := (valueInBase? 16 digits).getD 0
    match text.drop digits.length with
    | [] => some (draft.push [piece])
    | ':' :: rest => if rest = [] then none else read? room (draft.push [piece]) rest
    | '.' :: _ =>
      if digits = [] ∨ room = 0 then none else (dottedPieces? text).map draft.push
    | _ => none

end Ipv6Draft

/-- The pieces of an address. Only a `::` may stand at its front. -/
def ipv6Pieces? (text : List Char) : Option (List Nat) := do
  let draft ← match text with
    | ':' :: ':' :: rest => (← Ipv6Draft.open? {}).read? 7 rest
    | ':' :: _ => none
    | [] => none
    | [_] => none
    | text => Ipv6Draft.read? 8 {} text
  draft.finish?

def ipv6Address? (text : List Char) : Option (Vector UInt16 8) := do
  let pieces ← ipv6Pieces? text
  if h : (pieces.map UInt16.ofNat).length = 8 then
    some ⟨(pieces.map UInt16.ofNat).toArray, by simpa using h⟩
  else none

def zeroRun (pieces : List UInt16) (start : Nat) : Nat :=
  ((pieces.drop start).takeWhile (· == 0)).length

def longestZeroRun (pieces : List UInt16) : Nat :=
  (List.range pieces.length).foldl
    (fun best start => if zeroRun pieces best < zeroRun pieces start then start else best) 0

def pieceTexts (pieces : List UInt16) : String :=
  ":".intercalate (pieces.map fun piece => String.ofList (Nat.toDigits 16 piece.toNat))

/-- Pieces in lower case without leading zeros. The longest run of two or more zeros is left out. -/
def ipv6Text (address : Vector UInt16 8) : String :=
  let pieces := address.toList
  let start := longestZeroRun pieces
  let run := zeroRun pieces start
  if run < 2 then pieceTexts pieces
  else pieceTexts (pieces.take start) ++ "::" ++ pieceTexts (pieces.drop (start + run))

end ProjectClient.Url

import ProjectClient.Json.Skip

/-! Values of a known type. A record is written as an object, or as a list of its fields in order.
A reader that finds a value of another type names what it found. -/
namespace ProjectClient.Json

namespace Reader

/-- Reads a value of the wrong type, so far as it has to be named, and fails. -/
def mismatch {α : Type} (expected : Expected) : Reader α := do
  let found : Found ← match ← peek? with
    | some letterN => do
      drop
      restOfNull
      pure .null
    | some letterT => do
      drop
      restOfTrue
      pure (.boolean true)
    | some letterF => do
      drop
      restOfFalse
      pure (.boolean false)
    | some quotationMark => do
      drop
      pure (.string (← string))
    | some listStart => pure .sequence
    | some objectStart => pure .map
    | some b => if b = minus ∨ isDigit b then pure (← number).found else throw .expectedValue
    | none => throw .expectedValue
  throw (.invalidType found expected)

def text : Reader String := do
  match ← next? with
  | none => throw .endInValue
  | some quotationMark => do
    drop
    string
  | some _ => mismatch .string

def optionalText : Reader (Option String) := do
  match ← next? with
  | some letterN => do
    drop
    restOfNull
    return none
  | _ => return some (← text)

def ordinal : Reader Int64 := do
  match ← next? with
  | none => throw .endInValue
  | some b =>
    if b = minus ∨ isDigit b then
      match ← number with
      | .natural value =>
        if value < signLimit then return Int64.ofNat value else throw (.ordinalTooLarge value)
      | .negative magnitude => return Int64.ofInt (-(magnitude : Int))
      | .float value => throw (.invalidType (.float value) .ordinal)
    else mismatch .ordinal

def hasElement (isFirst : Bool) : Reader Bool := do
  match ← next? with
  | none => throw .endInList
  | some listEnd => return false
  | some b =>
    if isFirst then return true
    else if b = comma then do
      drop
      match ← next? with
      | none => throw .endInValue
      | some listEnd => throw .trailingComma
      | some _ => return true
    else throw .expectedListCommaOrEnd

def endOfList : Reader Unit := do
  match ← next? with
  | none => throw .endInList
  | some listEnd => drop
  | some comma => do
    drop
    match ← next? with
    | some listEnd => throw .trailingComma
    | _ => throw .trailingCharacters
  | some _ => throw .trailingCharacters

/-- Takes one element of a list or its end. The elements so far are in reverse. -/
def listStep {α : Type} (element : Reader α) (reversed : List α) :
    Reader (List α ⊕ List α) := do
  if ← hasElement reversed.isEmpty then return .inl ((← element) :: reversed)
  else do
    drop
    return .inr reversed.reverse

def list {α : Type} (element : Reader α) : Reader (List α) := do
  match ← next? with
  | none => throw .endInValue
  | some listStart => do
    drop
    iterate (listStep element) []
  | some _ => mismatch .sequence

def nextMember? (isFirst : Bool) : Reader (Option UInt8) := do
  match ← next? with
  | none => throw .endInObject
  | some objectEnd => return none
  | some b =>
    if isFirst then return some b
    else if b = comma then do
      drop
      match ← next? with
      | none => throw .endInValue
      | some objectEnd => throw .trailingComma
      | some b => return some b
    else throw .expectedObjectCommaOrEnd

def hasMember (isFirst : Bool) : Reader Bool := do
  match ← nextMember? isFirst with
  | none => return false
  | some b => if b = quotationMark then return true else throw .keyNotString

end Reader

/-- A field of a record that is read piece by piece into drafts of type `δ`. -/
structure RecordField (δ : Type) where
  key : String
  isOptional : Bool
  isSet : δ → Bool
  read : δ → Reader δ

structure Shape (δ α : Type) where
  name : String
  fields : List (RecordField δ)
  blank : δ
  /-- The value of a draft, or the key of the first field that it lacks. -/
  finish : δ → Except String α

namespace Shape

open Reader

variable {δ α : Type} (shape : Shape δ α)

def complete (draft : δ) : Reader α :=
  match shape.finish draft with
  | .ok value => pure value
  | .error key => throw (.missingField key)

/-- Reads fields in order from the elements of a list, of which `index` are already taken. -/
def readElements : List (RecordField δ) → Nat → δ → Reader δ
  | [], _, draft => pure draft
  | field :: fields, index, draft => do
    if ← hasElement (index == 0) then
      readElements fields (index + 1) (← field.read draft)
    else if field.isOptional then readElements fields (index + 1) draft
    else throw (.invalidLength index shape.name shape.fields.length)

def memberStep (state : δ × Bool) : Reader ((δ × Bool) ⊕ δ) := do
  let (draft, isFirst) := state
  if ← hasMember isFirst then do
    drop
    let key ← string
    match shape.fields.find? (·.key = key) with
    | some field =>
      if field.isSet draft then throw (.duplicateField key)
      else do
        keyEnd
        return .inl (← field.read draft, false)
    | none => do
      keyEnd
      skipValue
      return .inl (draft, false)
  else do
    drop
    return .inr draft

def read : Reader α := do
  match ← next? with
  | none => throw .endInValue
  | some listStart => do
    drop
    let value ← shape.complete (← shape.readElements shape.fields 0 shape.blank)
    endOfList
    return value
  | some objectStart => do
    drop
    shape.complete (← iterate shape.memberStep (shape.blank, true))
  | some _ => mismatch (.record shape.name)

end Shape

end ProjectClient.Json

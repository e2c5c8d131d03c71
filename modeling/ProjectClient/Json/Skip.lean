import ProjectClient.Json.Number
import ProjectClient.Json.Strings

/-! Values under unknown keys. They have to be well formed, but they may be nested to any depth, and
nothing in them is looked at. -/
namespace ProjectClient.Json

inductive Container where
  | list
  | object
deriving DecidableEq

namespace Reader

def keyEnd : Reader Unit := do
  match ← next? with
  | none => throw .endInObject
  | some colon => drop
  | some _ => throw .expectedColon

def skipKey : Reader Unit := do
  match ← next? with
  | none => throw .endInObject
  | some quotationMark => do
    drop
    skipString
    keyEnd
  | some _ => throw .keyNotString

/-- Goes on after a value inside the open containers, innermost first. Containers that end are left,
and a comma leads to the place of the next value. The result is what is still open there, or nothing
if no container is left. -/
def afterValue : List Container → Reader (Option (List Container))
  | [] => return none
  | .list :: outer => do
    match ← next? with
    | none => throw .endInList
    | some comma => do
      drop
      return some (.list :: outer)
    | some listEnd => do
      drop
      afterValue outer
    | some _ => throw .expectedListCommaOrEnd
  | .object :: outer => do
    match ← next? with
    | none => throw .endInObject
    | some comma => do
      drop
      skipKey
      return some (.object :: outer)
    | some objectEnd => do
      drop
      afterValue outer
    | some _ => throw .expectedObjectCommaOrEnd

def skipList (enclosing : List Container) : Reader (Option (List Container)) := do
  match ← next? with
  | none => throw .endInList
  | some listEnd => do
    drop
    afterValue enclosing
  | some _ => return some (.list :: enclosing)

def skipObject (enclosing : List Container) : Reader (Option (List Container)) := do
  match ← next? with
  | none => throw .endInObject
  | some objectEnd => do
    drop
    afterValue enclosing
  | some _ => do
    skipKey
    return some (.object :: enclosing)

/-- Passes over a value up to its first inner value, or as a whole if it has none. -/
def skipOne (enclosing : List Container) : Reader (Option (List Container)) := do
  match ← next? with
  | none => throw .endInValue
  | some letterN => do
    drop
    restOfNull
    afterValue enclosing
  | some letterT => do
    drop
    restOfTrue
    afterValue enclosing
  | some letterF => do
    drop
    restOfFalse
    afterValue enclosing
  | some quotationMark => do
    drop
    skipString
    afterValue enclosing
  | some listStart => do
    drop
    skipList enclosing
  | some objectStart => do
    drop
    skipObject enclosing
  | some b =>
    if b = minus ∨ isDigit b then do
      skipNumber
      afterValue enclosing
    else throw .expectedValue

def skipStep (enclosing : List Container) : Reader (List Container ⊕ Unit) := do
  return (← skipOne enclosing).elim (.inr ()) .inl

def skipValue : Reader Unit := iterate skipStep []

end Reader

end ProjectClient.Json

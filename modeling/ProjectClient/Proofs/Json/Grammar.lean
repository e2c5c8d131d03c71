import ProjectClient.Json.Number
import ProjectClient.Json.Strings
import Mathlib.Data.List.Forall2

/-! The texts of JSON as a grammar over bytes, apart from the readers. A text of the grammar has no
blanks around it. -/
namespace ProjectClient.Json

def AllBlank (t : Bytes) : Prop :=
  ∀ b ∈ t, isBlank b

/-! ## Numbers -/

def IsDigits (t : Bytes) : Prop :=
  t ≠ [] ∧ ∀ b ∈ t, isDigit b

def IsWhole (t : Bytes) : Prop :=
  IsDigits t ∧ (t.head? = some zero → t = [zero])

inductive IsFraction : Bytes → Prop where
  | none : IsFraction []
  | digits {t : Bytes} (digits : IsDigits t) : IsFraction (point :: t)

inductive IsPower : Bytes → Prop where
  | none : IsPower []
  | digits {mark : UInt8} {sign t : Bytes} (isMark : mark = 0x65 ∨ mark = 0x45)
    (isSign : sign = [] ∨ sign = [0x2b] ∨ sign = [minus]) (digits : IsDigits t) :
    IsPower (mark :: (sign ++ t))

inductive IsNumber : Bytes → Prop where
  | parts {sign whole fraction power : Bytes} (isSign : sign = [] ∨ sign = [minus])
    (isWhole : IsWhole whole) (isFraction : IsFraction fraction) (isPower : IsPower power) :
    IsNumber (sign ++ whole ++ fraction ++ power)

/-- The plain decimal texts of an integer. Minus zero is none. -/
inductive IsOrdinal (n : Int64) : Bytes → Prop where
  | natural {digits : Bytes} (isWhole : IsWhole digits) (value : n.toInt = Reader.decimal digits) :
    IsOrdinal n digits
  | negative {digits : Bytes} (isWhole : IsWhole digits) (nonzero : digits ≠ [zero])
    (value : n.toInt = -(Reader.decimal digits : Int)) : IsOrdinal n (minus :: digits)

/-! ## Strings -/

def letterEscapes : List (UInt8 × Char) :=
  [(quotationMark, '"'), (backslash, '\\'), (0x2f, '/'), (0x62, '\x08'), (letterF, '\x0c'),
    (letterN, '\n'), (0x72, '\r'), (letterT, '\t')]

def IsCodeUnit (n : Nat) (t : Bytes) : Prop :=
  ∃ a b c d, t.map Reader.hexDigit? = [some a, some b, some c, some d] ∧
    n = ((a * 16 + b) * 16 + c) * 16 + d

inductive IsEscape (c : Char) : Bytes → Prop where
  | letter {b : UInt8} (known : (b, c) ∈ letterEscapes) : IsEscape c [backslash, b]
  | unit {n : Nat} {t : Bytes} (isUnit : IsCodeUnit n t) (value : c.toNat = n) :
    IsEscape c (backslash :: letterU :: t)
  | pair {first second : Nat} {s t : Bytes} (isFirst : IsCodeUnit first s)
    (isSecond : IsCodeUnit second t) (high : 0xd800 ≤ first ∧ first < 0xdc00)
    (low : 0xdc00 ≤ second ∧ second < 0xe000)
    (value : c.toNat = 0x10000 + (first - 0xd800) * 0x400 + (second - 0xdc00)) :
    IsEscape c (backslash :: letterU :: (s ++ backslash :: letterU :: t))

/-- The spellings of characters between quotation marks: each as it is or by an escape. -/
inductive Spells : List Char → Bytes → Prop where
  | nil : Spells [] []
  | raw {c : Char} {cs : List Char} {t : Bytes} (visible : 0x20 ≤ c.toNat)
    (notMark : c ≠ '"' ∧ c ≠ '\\') (rest : Spells cs t) :
    Spells (c :: cs) (String.utf8EncodeChar c ++ t)
  | escape {c : Char} {cs : List Char} {e t : Bytes} (isEscape : IsEscape c e)
    (rest : Spells cs t) : Spells (c :: cs) (e ++ t)

def inQuotes (t : Bytes) : Bytes :=
  quotationMark :: (t ++ [quotationMark])

def IsString (text : String) (t : Bytes) : Prop :=
  ∃ inside, Spells text.toList inside ∧ t = inQuotes inside

def IsPlain (b : UInt8) : Prop :=
  0x20 ≤ b ∧ b ≠ quotationMark ∧ b ≠ backslash

inductive IsLooseSign : Bytes → Prop where
  | raw {b : UInt8} (plain : IsPlain b) : IsLooseSign [b]
  | letter {b : UInt8} {c : Char} (known : (b, c) ∈ letterEscapes) : IsLooseSign [backslash, b]
  | unit {n : Nat} {t : Bytes} (isUnit : IsCodeUnit n t) :
    IsLooseSign (backslash :: letterU :: t)

/-- What may stand between the quotation marks of such a string. It need not be valid UTF-8, nor do
its escapes have to be paired. -/
inductive IsLoose : Bytes → Prop where
  | nil : IsLoose []
  | sign {s t : Bytes} (isSign : IsLooseSign s) (rest : IsLoose t) : IsLoose (s ++ t)

def IsLooseString (t : Bytes) : Prop :=
  ∃ inside, IsLoose inside ∧ t = inQuotes inside

/-! ## Lists and objects -/

/-- What stands in front of an element or a member: blanks, and a comma unless it is the first. -/
inductive IsLead : Bool → Bytes → Prop where
  | first {blanks : Bytes} (blank : AllBlank blanks) : IsLead true blanks
  | comma {before after : Bytes} (blank : AllBlank before) (blank' : AllBlank after) :
    IsLead false (before ++ comma :: after)

inductive IsRow (close : UInt8) : Bool → List Bytes → Bytes → Prop where
  | close {isFirst : Bool} {blanks : Bytes} (blank : AllBlank blanks) :
    IsRow close isFirst [] (blanks ++ [close])
  | piece {isFirst : Bool} {lead piece t : Bytes} {pieces : List Bytes}
    (isLead : IsLead isFirst lead)
    (rest : IsRow close false pieces t) : IsRow close isFirst (piece :: pieces) (lead ++ piece ++ t)

def IsList (elements : List Bytes) (t : Bytes) : Prop :=
  ∃ row, IsRow listEnd true elements row ∧ t = listStart :: row

structure Member where
  key : Bytes
  value : Bytes
  before : Bytes := []
  after : Bytes := []
  blank : AllBlank before := by simp [AllBlank]
  blank' : AllBlank after := by simp [AllBlank]

def Member.text (member : Member) : Bytes :=
  member.key ++ member.before ++ colon :: (member.after ++ member.value)

def IsObject (members : List Member) (t : Bytes) : Prop :=
  ∃ row, IsRow objectEnd true (members.map Member.text) row ∧ t = objectStart :: row

def nullText : Bytes := [letterN, 0x75, 0x6c, 0x6c]

def trueText : Bytes := [letterT, 0x72, 0x75, 0x65]

def falseText : Bytes := [letterF, 0x61, 0x6c, 0x73, 0x65]

/-- Any well-formed text. Its strings are loose, and the brackets nest to any depth. -/
inductive IsValue : Bytes → Prop where
  | nullWord : IsValue nullText
  | trueWord : IsValue trueText
  | falseWord : IsValue falseText
  | number {t : Bytes} (isNumber : IsNumber t) : IsValue t
  | string {t : Bytes} (isString : IsLooseString t) : IsValue t
  | list {elements : List Bytes} {t : Bytes} (isList : IsList elements t)
    (inside : ∀ e ∈ elements, IsValue e) : IsValue t
  | object {members : List Member} {t : Bytes} (isObject : IsObject members t)
    (keys : ∀ m ∈ members, IsLooseString m.key) (inside : ∀ m ∈ members, IsValue m.value) :
    IsValue t

/-! ## Records -/

structure Part where
  key : String
  /-- Whether the value is the one that a missing field stands for. -/
  mayMiss : Prop
  Text : Bytes → Prop

def valuesOf (key : String) (members : List (String × Member)) : List Bytes :=
  (members.filter (·.1 = key)).map (·.2.value)

/-- A key of its own gives the field once, or nothing does. -/
def Part.IsGivenBy (part : Part) (members : List (String × Member)) : Prop :=
  valuesOf part.key members = [] ∧ part.mayMiss ∨
    ∃ t, valuesOf part.key members = [t] ∧ part.Text t

/-- An object with the fields under their keys in any order. What stands under other keys is any
value. -/
def IsByName (parts : List Part) (t : Bytes) : Prop :=
  ∃ members : List (String × Member), IsObject (members.map (·.2)) t ∧
    (∀ m ∈ members, IsString m.1 m.2.key) ∧
    (∀ part ∈ parts, part.IsGivenBy members) ∧
    ∀ m ∈ members, m.1 ∉ parts.map (·.key) → IsValue m.2.value

/-- Texts of the fields in order. Only fields at the end are missing. -/
inductive InOrder : List Part → List Bytes → Prop where
  | nil : InOrder [] []
  | given {part : Part} {parts : List Part} {t : Bytes} {ts : List Bytes} (isText : part.Text t)
    (rest : InOrder parts ts) : InOrder (part :: parts) (t :: ts)
  | missing {part : Part} {parts : List Part} (mayMiss : part.mayMiss)
    (rest : InOrder parts []) : InOrder (part :: parts) []

def IsByPlace (parts : List Part) (t : Bytes) : Prop :=
  ∃ elements, IsList elements t ∧ InOrder parts elements

def IsRecord (parts : List Part) (t : Bytes) : Prop :=
  IsByName parts t ∨ IsByPlace parts t

def IsOptional : Option String → Bytes → Prop
  | none, t => t = nullText
  | some text, t => IsString text t

def IsListOf {α : Type} (IsText : α → Bytes → Prop) (values : List α) (t : Bytes) : Prop :=
  ∃ elements, IsList elements t ∧ List.Forall₂ IsText values elements

end ProjectClient.Json

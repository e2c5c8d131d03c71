import Mathlib.Data.List.Nodup
import ProjectClient.Proofs.Json.Reads
import ProjectClient.Wire

/-! The fields of a record as a reader collects them in a draft. What the draft has to be is said
field by field, so that the value of a text does not depend on the order. -/
namespace ProjectClient.Json

open Reader

theorem complete_eq_ok {δ α : Type} {shape : Shape δ α} {draft : δ} {a : α}
    {bytes rest : Bytes} :
    shape.complete draft bytes = .ok (a, rest) ↔ shape.finish draft = .ok a ∧ bytes = rest := by
  rw [Shape.complete]
  cases shape.finish draft with
  | ok value => simp
  | error key => simp

section

variable {key other : String} {member : Member} {members : List (String × Member)}

theorem valuesOf_cons_same :
    valuesOf key ((key, member) :: members) = member.value :: valuesOf key members := by
  simp [valuesOf]

theorem valuesOf_cons_other (ne : other ≠ key) :
    valuesOf key ((other, member) :: members) = valuesOf key members := by
  simp [valuesOf, ne]

theorem mem_valuesOf {m : String × Member} (mem : m ∈ members) :
    m.2.value ∈ valuesOf m.1 members :=
  List.mem_map.2 ⟨m, List.mem_filter.2 ⟨mem, by simp⟩, rfl⟩

end

structure Slot (δ α : Type) where
  key : String
  β : Type
  get : δ → Option β
  set : δ → β → δ
  reader : Reader β
  IsText : β → Bytes → Prop
  value : α → β
  /-- What a missing field stands for, if it may be missing. -/
  missing : Option β

namespace Slot

variable {δ α : Type}

def field (slot : Slot δ α) : RecordField δ :=
  Wire.field slot.key slot.missing.isSome slot.get slot.set slot.reader

@[simp] theorem field_isSet (slot : Slot δ α) (draft : δ) :
    slot.field.isSet draft = (slot.get draft).isSome := rfl

theorem field_read_eq_ok {slot : Slot δ α} {draft draft' : δ} {bytes rest : Bytes} :
    slot.field.read draft bytes = .ok (draft', rest) ↔
      ∃ b, slot.reader bytes = .ok (b, rest) ∧ draft' = slot.set draft b := by
  refine bind_eq_ok.trans ?_
  simp only [pure_eq_ok]
  constructor
  · rintro ⟨b, _, read, rfl, rfl⟩
    exact ⟨b, read, rfl⟩
  · rintro ⟨b, read, rfl⟩
    exact ⟨b, rest, read, rfl, rfl⟩

def part (slot : Slot δ α) (a : α) : Part where
  key := slot.key
  mayMiss := slot.missing = some (slot.value a)
  Text := slot.IsText (slot.value a)

theorem part_isGivenBy {slot : Slot δ α} {a : α} {members : List (String × Member)} :
    (slot.part a).IsGivenBy members ↔
      valuesOf slot.key members = [] ∧ slot.missing = some (slot.value a) ∨
      ∃ t, valuesOf slot.key members = [t] ∧ slot.IsText (slot.value a) t :=
  Iff.rfl

end Slot

/-- The fields of a shape, each independent of the others in a draft. -/
structure Describes {δ α : Type} (slots : List (Slot δ α)) (shape : Shape δ α) : Prop where
  fields : shape.fields = slots.map Slot.field
  keys : (slots.map Slot.key).Nodup
  reads : ∀ slot ∈ slots, Reads slot.reader slot.IsText
  get_set : ∀ slot ∈ slots, ∀ draft b, slot.get (slot.set draft b) = some b
  frame : ∀ slot ∈ slots, ∀ other ∈ slots, slot.key ≠ other.key → ∀ draft b,
    other.get (slot.set draft b) = other.get draft
  blank : ∀ slot ∈ slots, slot.get shape.blank = none
  finish : ∀ draft a, shape.finish draft = .ok a ↔
    ∀ slot ∈ slots, (slot.get draft).or slot.missing = some (slot.value a)

namespace Describes

variable {δ α : Type} {slots : List (Slot δ α)} {shape : Shape δ α}
  (describes : Describes slots shape)

include describes

theorem eq_of_key {slot other : Slot δ α} (mem : slot ∈ slots) (mem' : other ∈ slots)
    (same : slot.key = other.key) : slot = other :=
  List.inj_on_of_nodup_map describes.keys mem mem' same

theorem find_eq_none {key : String} :
    shape.fields.find? (·.key = key) = none ↔ key ∉ slots.map Slot.key := by
  rw [describes.fields, List.find?_eq_none, List.forall_mem_map, List.mem_map]
  simp only [decide_eq_true_eq, not_exists, not_and]
  exact Iff.rfl

theorem mem_of_find {key : String} {field : RecordField δ}
    (found : shape.fields.find? (·.key = key) = some field) :
    ∃ slot ∈ slots, slot.key = key ∧ slot.field = field := by
  have mem := List.mem_of_find?_eq_some found
  have same := List.find?_some found
  rw [describes.fields] at mem
  obtain ⟨slot, inSlots, rfl⟩ := List.mem_map.1 mem
  exact ⟨slot, inSlots, of_decide_eq_true same, rfl⟩

theorem find_of_mem {slot : Slot δ α} (mem : slot ∈ slots) :
    shape.fields.find? (·.key = slot.key) = some slot.field := by
  cases found : shape.fields.find? (·.key = slot.key) with
  | none => exact absurd (List.mem_map_of_mem mem) (describes.find_eq_none.1 found)
  | some field =>
    obtain ⟨other, mem', same, rfl⟩ := describes.mem_of_find found
    rw [describes.eq_of_key mem' mem same]

end Describes

end ProjectClient.Json

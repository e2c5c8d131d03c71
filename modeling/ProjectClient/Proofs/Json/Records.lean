import ProjectClient.Proofs.Json.Objects

/-! Records in both forms: objects, and lists of their fields in order. -/
namespace ProjectClient.Json

open Reader

theorem InOrder.isValue {parts : List Part} {elements : List Bytes}
    (inOrder : InOrder parts elements)
    (values : ∀ part ∈ parts, ∀ t, part.Text t → IsValue t) : ∀ e ∈ elements, IsValue e := by
  induction inOrder with
  | nil => exact nofun
  | given isText _ ih =>
    rw [List.forall_mem_cons] at values
    exact List.forall_mem_cons.2 ⟨values.1 _ isText, ih values.2⟩
  | missing => exact nofun

theorem isValue_of_isGivenBy {parts : List Part} {members : List (String × Member)}
    (given : ∀ part ∈ parts, part.IsGivenBy members)
    (others : ∀ m ∈ members, m.1 ∉ parts.map (·.key) → IsValue m.2.value)
    (values : ∀ part ∈ parts, ∀ t, part.Text t → IsValue t) :
    ∀ m ∈ members, IsValue m.2.value := by
  intro m mem
  by_cases known : m.1 ∈ parts.map (·.key)
  · obtain ⟨part, inParts, same⟩ := List.mem_map.1 known
    have inside := mem_valuesOf mem
    rw [← same] at inside
    obtain ⟨none, -⟩ | ⟨s, single, isText⟩ := given part inParts
    · rw [none] at inside
      cases inside
    · rw [single, List.mem_singleton] at inside
      exact inside ▸ values part inParts s isText
  · exact others m mem known

theorem IsRecord.isValue {parts : List Part} {t : Bytes} (isRecord : IsRecord parts t)
    (values : ∀ part ∈ parts, ∀ t, part.Text t → IsValue t) : IsValue t := by
  obtain ⟨members, isObject, keys, given, others⟩ | ⟨elements, isList, inOrder⟩ := isRecord
  · exact .object isObject (List.forall_mem_map.2 fun m mem => (keys m mem).isLooseString)
      (List.forall_mem_map.2 (isValue_of_isGivenBy given others values))
  · exact .list isList (inOrder.isValue values)

theorem IsRow.eq_nil {close : UInt8} {pieces : List Bytes} {row rest s : Bytes}
    (solid : isBlank close = false) (notComma : close ≠ comma)
    (isRow : IsRow close false pieces row) (same : close :: s = row ++ rest) :
    pieces = [] ∧ s = rest := by
  have alone {blanks t : Bytes} (blank : AllBlank blanks) (same : close :: s = blanks ++ t) :
      close :: s = t := by
    cases blanks with
    | nil => exact same
    | cons b blanks =>
      cases same
      have isBlank := blank close List.mem_cons_self
      rw [solid] at isBlank
      cases isBlank
  cases isRow with
  | close blank =>
    rw [List.append_assoc] at same
    cases alone blank same
    exact ⟨rfl, rfl⟩
  | piece isLead =>
    cases isLead with
    | comma blank =>
      simp only [List.append_assoc, List.cons_append] at same
      exact absurd (List.cons.inj (alone blank same)).1 notComma

section

variable {δ α : Type} {slots : List (Slot δ α)} {shape : Shape δ α} {bytes rest : Bytes}

inductive TakesInOrder : List (Slot δ α) → δ → List Bytes → δ → Prop where
  | nil {draft : δ} : TakesInOrder [] draft [] draft
  | given {slot : Slot δ α} {slots : List (Slot δ α)} {draft last : δ} {b : slot.β} {t : Bytes}
    {ts : List Bytes} (isText : slot.IsText b t)
    (rest : TakesInOrder slots (slot.set draft b) ts last) :
    TakesInOrder (slot :: slots) draft (t :: ts) last
  | missing {slot : Slot δ α} {slots : List (Slot δ α)} {draft last : δ}
    (mayMiss : slot.missing.isSome) (rest : TakesInOrder slots draft [] last) :
    TakesInOrder (slot :: slots) draft [] last

namespace Describes

variable (describes : Describes slots shape)

include describes

/-! ## Elements of a list -/

theorem readElements_sound {part : List (Slot δ α)} (inSlots : part ⊆ slots) {index : Nat}
    {draft last : δ} {mid : Bytes} {u : Unit}
    (h : shape.readElements (part.map Slot.field) index draft bytes = .ok (last, mid))
    (ended : endOfList mid = .ok (u, rest)) :
    ∃ elements row, TakesInOrder part draft elements last ∧
      IsRow listEnd (index == 0) elements row ∧ bytes = row ++ rest := by
  induction part generalizing index draft bytes with
  | nil =>
    obtain ⟨rfl, rfl⟩ := pure_eq_ok.1 h
    obtain ⟨blanks, blank, rfl⟩ := endOfList_eq_ok.1 ended
    exact ⟨[], _, .nil, .close blank, by simp⟩
  | cons slot part ih =>
    rw [List.cons_subset] at inSlots
    rw [List.map_cons, Shape.readElements, bind_eq_ok] at h
    obtain ⟨more, _, looks, goes⟩ := h
    obtain ⟨rfl, blanks, s, blank, rfl, rfl⟩ | ⟨rfl, lead, isLead, rfl⟩ := hasElement_sound looks
    · -- Nothing was taken, so the other fields find the same bracket.
      rw [if_neg nofun] at goes
      obtain ⟨mayMiss, goes⟩ := ite_else_throw_eq_ok.1 goes
      obtain ⟨elements, row, takes, isRow, same⟩ := ih inSlots.2 goes
      obtain ⟨rfl, rfl⟩ := isRow.eq_nil rfl (by decide) same
      exact ⟨[], _, .missing mayMiss takes, .close blank, by simp⟩
    · rw [if_pos rfl] at goes
      obtain ⟨draft', _, read, further⟩ := bind_eq_ok.1 goes
      obtain ⟨b, inner, rfl⟩ := Slot.field_read_eq_ok.1 read
      obtain ⟨blanks, t, blank, isText, rfl⟩ := (describes.reads slot inSlots.1).sound inner
      obtain ⟨elements, row, takes, isRow, rfl⟩ := ih inSlots.2 further
      exact ⟨t :: elements, _, .given isText takes, .piece (isLead.append blank) isRow, by simp⟩

theorem readElements_complete {part : List (Slot δ α)} (inSlots : part ⊆ slots) (index : Nat)
    {draft last : δ} {elements : List Bytes} {row : Bytes}
    (takes : TakesInOrder part draft elements last)
    (isRow : IsRow listEnd (index == 0) elements row) (rest : Bytes) :
    ∃ mid, shape.readElements (part.map Slot.field) index draft (row ++ rest) = .ok (last, mid) ∧
      endOfList mid = .ok ((), rest) := by
  induction takes generalizing index row with
  | nil =>
    cases isRow with
    | close blank => exact ⟨_, rfl, endOfList_eq_ok.2 ⟨_, blank, by simp⟩⟩
  | @given slot part draft last b t ts isText takes ih =>
    rw [List.cons_subset] at inSlots
    cases isRow with
    | @piece _ lead _ row _ isLead isRow =>
      have reads := describes.reads slot inSlots.1
      have looks := hasElement_complete isLead (reads.isValue isText) (row ++ rest)
      have read := reads.complete allBlank_nil isText (isRow.ends ends_listEnd rest)
      obtain ⟨mid, further, ended⟩ := @ih inSlots.2 (index + 1) row isRow
      refine ⟨mid, ?_, ended⟩
      rw [List.append_assoc, List.append_assoc]
      exact bind_eq_ok.2 ⟨true, _, looks, bind_eq_ok.2
        ⟨_, _, Slot.field_read_eq_ok.2 ⟨b, read, rfl⟩, further⟩⟩
  | @missing slot part draft last mayMiss takes ih =>
    rw [List.cons_subset] at inSlots
    cases isRow with
    | close blank =>
      have looks := hasElement_listEnd (index == 0) blank rest
      obtain ⟨mid, further, ended⟩ := @ih inSlots.2 (index + 1) _ (.close allBlank_nil)
      refine ⟨mid, ?_, ended⟩
      rw [List.append_assoc]
      exact bind_eq_ok.2 ⟨false, _, looks, ite_else_throw_eq_ok.2 ⟨mayMiss, further⟩⟩

theorem get_of_takesInOrder {part : List (Slot δ α)} (inSlots : part ⊆ slots) {draft last : δ}
    {elements : List Bytes} (takes : TakesInOrder part draft elements last) {slot : Slot δ α}
    (mem : slot ∈ slots) (other : slot.key ∉ part.map Slot.key) :
    slot.get last = slot.get draft := by
  induction takes with
  | nil => rfl
  | @given first part draft last b t ts isText takes ih =>
    rw [List.cons_subset] at inSlots
    rw [List.map_cons, List.mem_cons, not_or] at other
    rw [ih inSlots.2 other.2, describes.frame first inSlots.1 slot mem (Ne.symm other.1)]
  | missing mayMiss takes ih =>
    rw [List.cons_subset] at inSlots
    rw [List.map_cons, List.mem_cons, not_or] at other
    exact ih inSlots.2 other.2

theorem inOrder_of_takesInOrder {part : List (Slot δ α)} (inSlots : part ⊆ slots)
    (keys : (part.map Slot.key).Nodup) {draft last : δ} {elements : List Bytes} {a : α}
    (takes : TakesInOrder part draft elements last)
    (unset : ∀ slot ∈ part, slot.get draft = none)
    (value : ∀ slot ∈ part, (slot.get last).or slot.missing = some (slot.value a)) :
    InOrder (part.map (·.part a)) elements := by
  induction takes with
  | nil => exact .nil
  | @given slot part draft last b t ts isText takes ih =>
    rw [List.cons_subset] at inSlots
    rw [List.forall_mem_cons] at unset value
    obtain ⟨other, keys⟩ := List.nodup_cons.1 keys
    have set := describes.get_of_takesInOrder inSlots.2 takes inSlots.1 other
    have first := value.1
    rw [set, describes.get_set slot inSlots.1, Option.some_or] at first
    cases first
    refine .given isText (ih inSlots.2 keys (fun next mem => ?_) value.2)
    have ne : slot.key ≠ next.key := fun same => other (same ▸ List.mem_map_of_mem mem)
    rw [describes.frame slot inSlots.1 next (inSlots.2 mem) ne, unset.2 next mem]
  | @missing slot part draft last mayMiss takes ih =>
    rw [List.cons_subset] at inSlots
    rw [List.forall_mem_cons] at unset value
    obtain ⟨other, keys⟩ := List.nodup_cons.1 keys
    have keeps := describes.get_of_takesInOrder inSlots.2 takes inSlots.1 other
    have first := value.1
    rw [keeps, unset.1, Option.none_or] at first
    exact .missing first (ih inSlots.2 keys unset.2 value.2)

theorem takesInOrder_of_inOrder {part : List (Slot δ α)} (inSlots : part ⊆ slots)
    (keys : (part.map Slot.key).Nodup) {draft : δ} {elements : List Bytes} {a : α}
    (inOrder : InOrder (part.map (·.part a)) elements)
    (unset : ∀ slot ∈ part, slot.get draft = none) :
    ∃ last, TakesInOrder part draft elements last ∧
      ∀ slot ∈ part, (slot.get last).or slot.missing = some (slot.value a) := by
  induction part generalizing draft elements with
  | nil =>
    cases inOrder with
    | nil => exact ⟨draft, .nil, nofun⟩
  | cons slot part ih =>
    rw [List.cons_subset] at inSlots
    rw [List.forall_mem_cons] at unset
    obtain ⟨other, keys⟩ := List.nodup_cons.1 keys
    cases inOrder with
    | given isText inOrder =>
      have unset' : ∀ next ∈ part, next.get (slot.set draft (slot.value a)) = none := by
        intro next mem
        have ne : slot.key ≠ next.key := fun same => other (same ▸ List.mem_map_of_mem mem)
        rw [describes.frame slot inSlots.1 next (inSlots.2 mem) ne, unset.2 next mem]
      obtain ⟨last, takes, value⟩ := ih inSlots.2 keys inOrder unset'
      refine ⟨last, .given isText takes, List.forall_mem_cons.2 ⟨?_, value⟩⟩
      rw [describes.get_of_takesInOrder inSlots.2 takes inSlots.1 other,
        describes.get_set slot inSlots.1, Option.some_or]
    | missing mayMiss inOrder =>
      have mayMiss : slot.missing = some (slot.value a) := mayMiss
      obtain ⟨last, takes, value⟩ := ih inSlots.2 keys inOrder unset.2
      refine ⟨last, .missing (by rw [mayMiss]; rfl) takes, List.forall_mem_cons.2 ⟨?_, value⟩⟩
      rw [describes.get_of_takesInOrder inSlots.2 takes inSlots.1 other, unset.1, Option.none_or,
        mayMiss]

theorem readList_eq_ok {a : α} :
    (do
      let value ← shape.complete (← shape.readElements shape.fields 0 shape.blank)
      endOfList
      return value : Reader α) bytes = .ok (a, rest) ↔
      ∃ elements row, IsRow listEnd true elements row ∧
        InOrder (slots.map (·.part a)) elements ∧ bytes = row ++ rest := by
  simp only [bind_eq_ok, complete_eq_ok, pure_eq_ok, describes.fields]
  constructor
  · rintro ⟨last, mid, read, _, _, ⟨finish, rfl⟩, _, _, ended, rfl, rfl⟩
    obtain ⟨elements, row, takes, isRow, rfl⟩ :=
      describes.readElements_sound (List.Subset.refl slots) read ended
    exact ⟨elements, row, isRow, describes.inOrder_of_takesInOrder (List.Subset.refl slots)
      describes.keys takes describes.blank ((describes.finish last _).1 finish), rfl⟩
  · rintro ⟨elements, row, isRow, inOrder, rfl⟩
    obtain ⟨last, takes, value⟩ := describes.takesInOrder_of_inOrder (List.Subset.refl slots)
      describes.keys inOrder describes.blank
    obtain ⟨mid, read, ended⟩ :=
      describes.readElements_complete (List.Subset.refl slots) 0 takes isRow rest
    exact ⟨last, mid, read, a, mid, ⟨(describes.finish last a).2 value, rfl⟩, (), rest, ended, rfl,
      rfl⟩

/-! ## Records as a whole -/

/-- What a shape reads is the records of its values, with blanks in front. A record ends by itself,
so it does not matter what follows. -/
theorem read_eq_ok {a : α} :
    shape.read bytes = .ok (a, rest) ↔
      ∃ blanks t, AllBlank blanks ∧ IsRecord (slots.map (·.part a)) t ∧
        bytes = blanks ++ (t ++ rest) := by
  have parts : (slots.map (·.part a)).map (·.key) = slots.map Slot.key := by
    rw [List.map_map]
    rfl
  constructor
  · intro h
    rw [Shape.read, next?_bind_eq_ok (fun _ => throw_ne_ok)] at h
    obtain ⟨blanks, c, t, blank, -, rfl, h⟩ := h
    split at h
    · contradiction
    · cases ‹some c = some listStart›
      obtain ⟨elements, row, isRow, inOrder, rfl⟩ := describes.readList_eq_ok.1 h
      exact ⟨blanks, listStart :: row, blank, .inr ⟨elements, ⟨row, isRow, rfl⟩, inOrder⟩, rfl⟩
    · cases ‹some c = some objectStart›
      obtain ⟨members, row, isRow, keys, given, others, rfl⟩ := describes.readObject_eq_ok.1 h
      refine ⟨blanks, objectStart :: row, blank, .inl ⟨members, ⟨row, ?_, rfl⟩, keys, ?_, ?_⟩, rfl⟩
      · rwa [List.map_map]
      · exact List.forall_mem_map.2 given
      · rwa [parts]
    · exact absurd h (mismatch_fails _ _ _ _)
  · rintro ⟨blanks, t, blank, isRecord, rfl⟩
    obtain ⟨members, ⟨row, isRow, rfl⟩, keys, given, others⟩ |
      ⟨elements, ⟨row, isRow, rfl⟩, inOrder⟩ := isRecord
    · rw [List.map_map] at isRow
      rw [parts] at others
      rw [Shape.read, List.cons_append, next?_bind_append blank rfl]
      exact describes.readObject_eq_ok.2
        ⟨members, row, isRow, keys, List.forall_mem_map.1 given, others, rfl⟩
    · rw [Shape.read, List.cons_append, next?_bind_append blank rfl]
      exact describes.readList_eq_ok.2 ⟨elements, row, isRow, inOrder, rfl⟩

theorem isValue_of_isRecord {a : α} {t : Bytes} (isRecord : IsRecord (slots.map (·.part a)) t) :
    IsValue t :=
  isRecord.isValue (List.forall_mem_map.2 fun slot mem _ isText =>
    (describes.reads slot mem).isValue isText)

theorem reads_read : Reads shape.read fun a => IsRecord (slots.map (·.part a)) where
  isValue := describes.isValue_of_isRecord
  sound := describes.read_eq_ok.1
  complete blank isRecord _ := describes.read_eq_ok.2 ⟨_, _, blank, isRecord, rfl⟩

theorem decode_eq_ok {a : α} :
    shape.decode bytes = .ok a ↔
      ∃ before t after, AllBlank before ∧ IsRecord (slots.map (·.part a)) t ∧ AllBlank after ∧
        bytes = before ++ t ++ after := by
  simp only [Shape.decode, readAll_eq_ok, describes.read_eq_ok, List.append_assoc]
  constructor
  · rintro ⟨after, ⟨before, t, blank, isRecord, same⟩, blank'⟩
    exact ⟨before, t, after, blank, isRecord, blank', same⟩
  · rintro ⟨before, t, after, blank, isRecord, blank', same⟩
    exact ⟨after, ⟨before, t, blank, isRecord, same⟩, blank'⟩

end Describes

end

end ProjectClient.Json

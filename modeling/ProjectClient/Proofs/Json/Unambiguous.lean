import ProjectClient.Proofs.Json.Records

/-! No text of the grammar has two readings. Where a value or a member ends is settled by its text
and what follows, so two records with one text agree in each of their fields. -/
namespace ProjectClient.Json

variable {rest rest' : Bytes}

/-! ## Values and strings -/

theorem eq_of_blanks {blanks blanks' s s' : Bytes} {b b' : UInt8} (blank : AllBlank blanks)
    (blank' : AllBlank blanks') (solid : isBlank b = false) (solid' : isBlank b' = false)
    (same : blanks ++ b :: s = blanks' ++ b' :: s') : b = b' ∧ s = s' := by
  have behind := congrArg (List.dropWhile isBlank) same
  rw [List.dropWhile_append_of_pos blank, List.dropWhile_append_of_pos blank',
    List.dropWhile_cons_of_neg (by simp [solid]), List.dropWhile_cons_of_neg (by simp [solid'])]
    at behind
  exact List.cons.inj behind

/-- A value stops where reading it stops. -/
theorem IsValue.unique {blanks blanks' t t' : Bytes} (blank : AllBlank blanks)
    (blank' : AllBlank blanks') (isValue : IsValue t) (isValue' : IsValue t') (ends : Ends rest)
    (ends' : Ends rest') (same : blanks ++ (t ++ rest) = blanks' ++ (t' ++ rest')) :
    t = t' ∧ rest = rest' := by
  have skipped := Reader.skipValue_of_isValue isValue blank ends
  rw [same, Reader.skipValue_of_isValue isValue' blank' ends'] at skipped
  obtain rfl : rest' = rest := (Prod.mk.inj (Except.ok.inj skipped)).2
  obtain ⟨b, s, rfl, solid, -⟩ := isValue.cons
  obtain ⟨b', s', rfl, solid', -⟩ := isValue'.cons
  obtain ⟨rfl, behind⟩ := eq_of_blanks blank blank' solid solid' same
  exact ⟨congrArg _ (List.append_cancel_right behind), rfl⟩

theorem IsString.unique {text text' : String} {t t' : Bytes} (isString : IsString text t)
    (isString' : IsString text' t') (same : t ++ rest = t' ++ rest') :
    text = text' ∧ rest = rest' := by
  have read {text : String} {t : Bytes} (rest : Bytes) (isString : IsString text t) :
      Reader.string (t ++ rest).tail = .ok (text, rest) := by
    obtain ⟨inside, spells, rfl⟩ := isString
    exact Reader.string_eq_ok.2 ⟨inside, spells, by simp [inQuotes]⟩
  have both := read rest isString
  rw [same, read rest' isString'] at both
  obtain ⟨text, rest⟩ := Prod.mk.inj (Except.ok.inj both)
  exact ⟨text.symm, rest.symm⟩

/-! ## Rows -/

/-- Pieces that are told apart by their texts and what may follow, and from what is around them. -/
structure Separates (close : UInt8) (IsPiece : Bytes → Prop) : Prop where
  starts {p : Bytes} : IsPiece p → ∃ b s, p = b :: s ∧ isBlank b = false ∧ b ≠ close
  unique {p p' rest rest' : Bytes} : IsPiece p → IsPiece p' → Ends rest → Ends rest' →
    p ++ rest = p' ++ rest' → p = p' ∧ rest = rest'

theorem IsLead.unique {isFirst : Bool} {lead lead' s s' : Bytes} {b b' : UInt8}
    (isLead : IsLead isFirst lead) (isLead' : IsLead isFirst lead') (solid : isBlank b = false)
    (solid' : isBlank b' = false) (same : lead ++ b :: s = lead' ++ b' :: s') :
    b = b' ∧ s = s' := by
  cases isLead with
  | first blank =>
    cases isLead' with
    | first blank' => exact eq_of_blanks blank blank' solid solid' same
  | comma before after =>
    cases isLead' with
    | comma before' after' =>
      simp only [List.append_assoc, List.cons_append] at same
      exact eq_of_blanks after after' solid solid' (eq_of_blanks before before' rfl rfl same).2

section

variable {close : UInt8} {IsPiece : Bytes → Prop}

theorem IsLead.ne_close {isFirst : Bool} {lead blanks s s' : Bytes} {b : UInt8}
    (isLead : IsLead isFirst lead) (blank : AllBlank blanks) (closing : isBlank close = false)
    (notComma : Json.comma ≠ close) (solid : isBlank b = false) (ne : b ≠ close) :
    lead ++ b :: s ≠ blanks ++ close :: s' := by
  intro same
  cases isLead with
  | first blank' => exact ne (eq_of_blanks blank' blank solid closing same).1
  | comma before after =>
    rw [List.append_assoc, List.cons_append] at same
    exact notComma (eq_of_blanks before blank rfl closing same).1

theorem IsRow.unique (separates : Separates close IsPiece) (closing : isBlank close = false)
    (notComma : comma ≠ close) (ends : Ends [close]) {isFirst : Bool} {ps ps' : List Bytes}
    {row row' : Bytes} (isRow : IsRow close isFirst ps row) (isRow' : IsRow close isFirst ps' row')
    (pieces : ∀ p ∈ ps, IsPiece p) (pieces' : ∀ p ∈ ps', IsPiece p)
    (same : row ++ rest = row' ++ rest') : ps = ps' ∧ rest = rest' := by
  -- A row that ends and one that goes on differ in the byte behind the blanks.
  induction isRow generalizing ps' row' with
  | close blank =>
    cases isRow' with
    | close blank' =>
      simp only [List.append_assoc, List.cons_append] at same
      exact ⟨rfl, (eq_of_blanks blank blank' closing closing same).2⟩
    | piece isLead =>
      obtain ⟨b, s, rfl, solid, ne⟩ := separates.starts (List.forall_mem_cons.1 pieces').1
      simp only [List.append_assoc, List.cons_append] at same
      exact absurd same.symm (isLead.ne_close blank closing notComma solid ne)
  | piece isLead isRow ih =>
    rw [List.forall_mem_cons] at pieces
    have starts := separates.starts pieces.1
    cases isRow' with
    | close blank =>
      obtain ⟨b, s, rfl, solid, ne⟩ := starts
      simp only [List.append_assoc, List.cons_append] at same
      exact absurd same (isLead.ne_close blank closing notComma solid ne)
    | piece isLead' isRow' =>
      rw [List.forall_mem_cons] at pieces'
      obtain ⟨b, s, rfl, solid, -⟩ := starts
      obtain ⟨b', s', rfl, solid', -⟩ := separates.starts pieces'.1
      simp only [List.append_assoc, List.cons_append] at same
      obtain ⟨rfl, behind⟩ := isLead.unique isLead' solid solid' same
      obtain ⟨piece, behind⟩ := separates.unique pieces.1 pieces'.1 (isRow.ends ends rest)
        (isRow'.ends ends rest') (congrArg (b :: ·) behind)
      obtain ⟨rfl, further⟩ := ih isRow' pieces.2 pieces'.2 behind
      exact ⟨by rw [piece], further⟩

end

/-! ## Lists and objects -/

theorem separates_isValue : Separates listEnd IsValue where
  starts isValue := by
    obtain ⟨b, s, rfl, solid, -, ne, -⟩ := isValue.cons
    exact ⟨b, s, rfl, solid, ne⟩
  unique isValue isValue' ends ends' same :=
    IsValue.unique allBlank_nil allBlank_nil isValue isValue' ends ends' same

theorem IsList.unique {elements elements' : List Bytes} {t : Bytes} (isList : IsList elements t)
    (isList' : IsList elements' t) (values : ∀ e ∈ elements, IsValue e)
    (values' : ∀ e ∈ elements', IsValue e) : elements = elements' := by
  obtain ⟨row, isRow, rfl⟩ := isList
  obtain ⟨row', isRow', same⟩ := isList'
  have rows : row ++ [] = row' ++ [] := by rw [(List.cons.inj same).2]
  exact (isRow.unique separates_isValue rfl (by decide) ends_listEnd isRow' values values' rows).1

def IsMember (m : String × Member) : Prop :=
  IsString m.1 m.2.key ∧ IsValue m.2.value

theorem IsMember.unique {m m' : String × Member} (isMember : IsMember m) (isMember' : IsMember m')
    (ends : Ends rest) (ends' : Ends rest') (same : m.2.text ++ rest = m'.2.text ++ rest') :
    (m.1 = m'.1 ∧ m.2.value = m'.2.value) ∧ rest = rest' := by
  simp only [Member.text, List.append_assoc, List.cons_append] at same
  obtain ⟨name, behind⟩ := isMember.1.unique isMember'.1 same
  have values := (eq_of_blanks m.2.blank m'.2.blank rfl rfl behind).2
  obtain ⟨value, further⟩ := IsValue.unique m.2.blank' m'.2.blank' isMember.2 isMember'.2 ends ends'
    values
  exact ⟨⟨name, value⟩, further⟩

theorem separates_isMember :
    Separates objectEnd fun p => ∃ m, IsMember m ∧ p = m.2.text where
  starts := by
    rintro _ ⟨m, ⟨⟨inside, -, key⟩, -⟩, rfl⟩
    exact ⟨quotationMark, _, by rw [Member.text, key]; rfl, rfl, by decide⟩
  unique := by
    rintro _ _ rest rest' ⟨m, isMember, rfl⟩ ⟨m', isMember', rfl⟩ ends ends' same
    obtain ⟨-, rfl⟩ := isMember.unique isMember' ends ends' same
    exact ⟨List.append_cancel_right same, rfl⟩

theorem valuesOf_eq_of_text {members members' : List (String × Member)}
    (isMember : ∀ m ∈ members, IsMember m) (isMember' : ∀ m ∈ members', IsMember m)
    (same : members.map (·.2.text) = members'.map (·.2.text)) (key : String) :
    valuesOf key members = valuesOf key members' := by
  induction members generalizing members' with
  | nil =>
    rw [List.map_nil, eq_comm, List.map_eq_nil_iff] at same
    rw [same]
  | cons m members ih =>
    cases members' with
    | nil => cases same
    | cons m' members' =>
      rw [List.forall_mem_cons] at isMember isMember'
      simp only [List.map_cons, List.cons.injEq] at same
      have nothing : Ends [] := nofun
      obtain ⟨⟨name, value⟩, -⟩ :=
        isMember.1.unique isMember'.1 nothing nothing (congrArg (· ++ []) same.1)
      have further := ih isMember.2 isMember'.2 same.2
      simp only [valuesOf, List.filter_cons, name] at further ⊢
      split <;> simp [further, value]

/-! ## Records -/

/-- Two descriptions of one field that some text fits, or that both allow to be missing. -/
def Part.Agrees (part part' : Part) : Prop :=
  part.mayMiss ∧ part'.mayMiss ∨ ∃ t, part.Text t ∧ part'.Text t

theorem InOrder.agrees {parts parts' : List Part} {elements : List Bytes}
    (inOrder : InOrder parts elements) (inOrder' : InOrder parts' elements)
    (length : parts.length = parts'.length) : List.Forall₂ Part.Agrees parts parts' := by
  induction inOrder generalizing parts' with
  | nil => cases inOrder' with
    | nil => exact .nil
    | missing => cases length
  | given isText _ ih => cases inOrder' with
    | given isText' inOrder' =>
      exact .cons (.inr ⟨_, isText, isText'⟩) (ih inOrder' (Nat.succ.inj length))
  | missing mayMiss _ ih => cases inOrder' with
    | nil => cases length
    | missing mayMiss' inOrder' =>
      exact .cons (.inl ⟨mayMiss, mayMiss'⟩) (ih inOrder' (Nat.succ.inj length))

theorem Part.IsGivenBy.agrees {part part' : Part} {members members' : List (String × Member)}
    (given : part.IsGivenBy members) (given' : part'.IsGivenBy members')
    (same : valuesOf part.key members = valuesOf part'.key members') : part.Agrees part' := by
  obtain ⟨none, mayMiss⟩ | ⟨t, single, isText⟩ := given <;>
    obtain ⟨none', mayMiss'⟩ | ⟨t', single', isText'⟩ := given'
  · exact .inl ⟨mayMiss, mayMiss'⟩
  · simp [none, single'] at same
  · simp [single, none'] at same
  · rw [single, single', List.singleton_inj] at same
    exact .inr ⟨t, isText, same ▸ isText'⟩

theorem forall₂_of_keys {R : Part → Part → Prop} {parts parts' : List Part}
    (keys : parts.map (·.key) = parts'.map (·.key))
    (related : ∀ part ∈ parts, ∀ part' ∈ parts', part.key = part'.key → R part part') :
    List.Forall₂ R parts parts' := by
  induction parts generalizing parts' with
  | nil =>
    rw [List.map_nil, eq_comm, List.map_eq_nil_iff] at keys
    rw [keys]
    exact .nil
  | cons part parts ih =>
    obtain ⟨part', parts', rfl, key, keys⟩ := List.map_eq_cons_iff.1 keys.symm
    simp only [List.forall_mem_cons] at related
    exact .cons (related.1.1 key.symm) (ih keys.symm fun p mem => (related.2 p mem).2)

theorem IsRecord.agrees {parts parts' : List Part} {t : Bytes} (record : IsRecord parts t)
    (record' : IsRecord parts' t) (keys : parts.map (·.key) = parts'.map (·.key))
    (values : ∀ part ∈ parts, ∀ t, part.Text t → IsValue t)
    (values' : ∀ part ∈ parts', ∀ t, part.Text t → IsValue t) :
    List.Forall₂ Part.Agrees parts parts' := by
  obtain ⟨members, ⟨row, isRow, rfl⟩, named, given, others⟩ | ⟨elements, isList, inOrder⟩ :=
      record <;>
    obtain ⟨members', ⟨row', isRow', same⟩, named', given', others'⟩ |
      ⟨elements', isList', inOrder'⟩ := record'
  · have isMember : ∀ m ∈ members, IsMember m := fun m mem =>
      ⟨named m mem, isValue_of_isGivenBy given others values m mem⟩
    have isMember' : ∀ m ∈ members', IsMember m := fun m mem =>
      ⟨named' m mem, isValue_of_isGivenBy given' others' values' m mem⟩
    have rows : row ++ [] = row' ++ [] := by rw [(List.cons.inj same).2]
    rw [List.map_map] at isRow isRow'
    have texts := (isRow.unique separates_isMember rfl (by decide) ends_objectEnd isRow'
      (List.forall_mem_map.2 fun m mem => ⟨m, isMember m mem, rfl⟩)
      (List.forall_mem_map.2 fun m mem => ⟨m, isMember' m mem, rfl⟩) rows).1
    refine forall₂_of_keys keys fun part mem part' mem' key =>
      (given part mem).agrees (given' part' mem') ?_
    rw [key]
    exact valuesOf_eq_of_text isMember isMember' texts part'.key
  · -- An object and a list differ in their first byte.
    obtain ⟨row', -, same⟩ := isList'
    cases same
  · obtain ⟨row, -, rfl⟩ := isList
    cases same
  · have elements := isList.unique isList' (inOrder.isValue values) (inOrder'.isValue values')
    have length := congrArg List.length keys
    rw [List.length_map, List.length_map] at length
    exact inOrder.agrees (elements ▸ inOrder') length

section

variable {δ α : Type} {slots : List (Slot δ α)} {shape : Shape δ α} {a : α}

theorem Describes.agrees (describes : Describes slots shape) {parts parts' : List Part} {t : Bytes}
    (same : slots.map (·.part a) = parts') (record : IsRecord parts t)
    (record' : IsRecord parts' t) (keys : parts.map (·.key) = parts'.map (·.key))
    (values : ∀ part ∈ parts, ∀ t, part.Text t → IsValue t) :
    List.Forall₂ Part.Agrees parts parts' := by
  refine record.agrees record' keys values ?_
  rw [← same]
  exact List.forall_mem_map.2 fun slot mem _ => (describes.reads slot mem).isValue

theorem Describes.decode_iff_isRecord (describes : Describes slots shape) {before t after : Bytes}
    (blank : AllBlank before) (blank' : AllBlank after) (isValue : IsValue t) :
    shape.decode (before ++ t ++ after) = .ok a ↔ IsRecord (slots.map (·.part a)) t := by
  have ends {after : Bytes} (blank : AllBlank after) : Ends after :=
    fun b first => .inl (blank b (List.mem_of_mem_head? first))
  rw [describes.decode_eq_ok]
  constructor
  · rintro ⟨before', t', after', blankBefore, isRecord, blankAfter, same⟩
    rw [List.append_assoc, List.append_assoc] at same
    obtain ⟨rfl, -⟩ := isValue.unique blank blankBefore (describes.isValue_of_isRecord isRecord)
      (ends blank') (ends blankAfter) same
    exact isRecord
  · exact fun isRecord => ⟨before, t, after, blank, isRecord, blank', rfl⟩

end

end ProjectClient.Json

import ProjectClient.Proofs.Json.Slots

/-! Records as objects. A reader takes the members in whatever order it finds them. -/
namespace ProjectClient.Json

open Reader

/-! ## Members of an object -/

section

variable {bytes rest : Bytes}

theorem nextMember?_sound {isFirst : Bool} {first : Option UInt8}
    (h : nextMember? isFirst bytes = .ok (first, rest)) :
    (first = none ∧ ∃ blanks s, AllBlank blanks ∧ rest = objectEnd :: s ∧ bytes = blanks ++ rest) ∨
    ∃ b lead s, first = some b ∧ IsLead isFirst lead ∧ rest = b :: s ∧ bytes = lead ++ rest := by
  rw [nextMember?, next?_bind_eq_ok (fun _ => throw_ne_ok)] at h
  obtain ⟨blanks, c, t, blank, -, rfl, h⟩ := h
  split at h
  · contradiction
  · cases ‹some c = some objectEnd›
    cases h
    exact .inl ⟨rfl, blanks, t, blank, rfl, rfl⟩
  · cases ‹some c = some _›
    cases isFirst with
    | true =>
      cases h
      exact .inr ⟨c, blanks, t, rfl, .first blank, rfl, rfl⟩
    | false =>
      obtain ⟨rfl, h⟩ := ite_else_throw_eq_ok.1 h
      rw [drop_bind, next?_bind_eq_ok (fun _ => throw_ne_ok)] at h
      obtain ⟨after, d, s, blank', -, same, h⟩ := h
      split at h
      · contradiction
      · exact absurd h throw_ne_ok
      · cases h
        cases same
        exact .inr ⟨d, blanks ++ comma :: after, s, ‹some d = some _›.symm,
          .comma blank blank', rfl, by simp⟩

theorem hasMember_sound {isFirst more : Bool} (h : hasMember isFirst bytes = .ok (more, rest)) :
    (more = false ∧ ∃ blanks s, AllBlank blanks ∧ rest = objectEnd :: s ∧ bytes = blanks ++ rest) ∨
    more = true ∧ ∃ lead s, IsLead isFirst lead ∧ rest = quotationMark :: s ∧
      bytes = lead ++ rest := by
  obtain ⟨first, mid, next, key⟩ := bind_eq_ok.1 h
  obtain ⟨rfl, isEnd⟩ | ⟨b, lead, s, rfl, isLead, rfl, rfl⟩ := nextMember?_sound next
  · cases key
    exact .inl ⟨rfl, isEnd⟩
  · obtain ⟨rfl, key⟩ := ite_else_throw_eq_ok.1 key
    cases key
    exact .inr ⟨rfl, lead, s, isLead, rfl, rfl⟩

theorem hasMember_complete {isFirst : Bool} {lead t : Bytes} (isLead : IsLead isFirst lead) :
    hasMember isFirst (lead ++ quotationMark :: t) = .ok (true, quotationMark :: t) := by
  have next : nextMember? isFirst (lead ++ quotationMark :: t) =
      .ok (some quotationMark, quotationMark :: t) := by
    cases isLead with
    | first blank =>
      rw [nextMember?, next?_bind_append blank rfl]
      rfl
    | comma blank blank' =>
      rw [List.append_assoc, List.cons_append, nextMember?, next?_bind_append blank rfl]
      change (drop >>= _ : Reader (Option UInt8)) _ = _
      rw [drop_bind, List.tail_cons, next?_bind_append blank' rfl]
      rfl
  exact bind_of_ok next

theorem hasMember_objectEnd {isFirst : Bool} {blanks : Bytes} (blank : AllBlank blanks) :
    hasMember isFirst (blanks ++ objectEnd :: rest) = .ok (false, objectEnd :: rest) := by
  rw [hasMember, bind_of_ok (next?_bind_append blank rfl)]
  rfl

end

/-! ## Members that fields take -/

section

variable {δ α : Type} {slots : List (Slot δ α)} {shape : Shape δ α} {bytes rest : Bytes}

inductive Takes (slots : List (Slot δ α)) (draft : δ) : String → Bytes → δ → Prop where
  | known {slot : Slot δ α} {b : slot.β} {t : Bytes} (mem : slot ∈ slots)
    (unset : slot.get draft = none) (isText : slot.IsText b t) :
    Takes slots draft slot.key t (slot.set draft b)
  | unknown {key : String} {t : Bytes} (other : key ∉ slots.map Slot.key) (isValue : IsValue t) :
    Takes slots draft key t draft

inductive TakesAll (slots : List (Slot δ α)) : δ → List (String × Member) → δ → Prop where
  | nil {draft : δ} : TakesAll slots draft [] draft
  | cons {draft next last : δ} {member : String × Member} {members : List (String × Member)}
    (takes : Takes slots draft member.1 member.2.value next)
    (rest : TakesAll slots next members last) : TakesAll slots draft (member :: members) last

theorem isValue_of_takesAll {draft last : δ} {members : List (String × Member)}
    (takesAll : TakesAll slots draft members last) :
    ∀ m ∈ members, m.1 ∉ slots.map Slot.key → IsValue m.2.value := by
  induction takesAll with
  | nil => exact nofun
  | cons takes _ ih =>
    refine List.forall_mem_cons.2 ⟨fun other => ?_, ih⟩
    generalize same : Prod.fst _ = key at takes other
    cases takes with
    | known mem => exact absurd (List.mem_map_of_mem mem) other
    | unknown _ isValue => exact isValue

theorem memberStep_objectEnd (draft : δ) (isFirst : Bool) {blanks : Bytes}
    (blank : AllBlank blanks) : shape.memberStep (draft, isFirst) (blanks ++ objectEnd :: rest) =
      .ok (.inr draft, rest) :=
  bind_eq_ok.2 ⟨false, _, hasMember_objectEnd blank, rfl⟩

namespace Describes

variable (describes : Describes slots shape)

include describes

theorem memberStep_sound {draft : δ} {isFirst : Bool} {next : (δ × Bool) ⊕ δ}
    (h : shape.memberStep (draft, isFirst) bytes = .ok (next, rest)) :
    (next = .inr draft ∧ ∃ blanks, AllBlank blanks ∧ bytes = blanks ++ objectEnd :: rest) ∨
    ∃ draft' lead key, ∃ member : Member, next = .inl (draft', false) ∧ IsLead isFirst lead ∧
      IsString key member.key ∧ Takes slots draft key member.value draft' ∧
      bytes = lead ++ (member.text ++ rest) := by
  rw [Shape.memberStep] at h
  obtain ⟨more, mid, looks, goes⟩ := bind_eq_ok.1 h
  obtain ⟨rfl, blanks, s, blank, rfl, rfl⟩ | ⟨rfl, lead, s, isLead, rfl, rfl⟩ :=
    hasMember_sound looks
  · cases goes
    exact .inl ⟨rfl, blanks, blank, rfl⟩
  · rw [if_pos rfl, drop_bind, List.tail_cons, bind_eq_ok] at goes
    obtain ⟨key, _, quoted, goes⟩ := goes
    obtain ⟨inside, spells, rfl⟩ := string_eq_ok.1 quoted
    have isKey : IsString key (inQuotes inside) := ⟨inside, spells, rfl⟩
    cases found : shape.fields.find? (·.key = key) with
    | some field =>
      rw [found] at goes
      obtain ⟨slot, mem, rfl, rfl⟩ := describes.mem_of_find found
      obtain ⟨unset, goes⟩ := ite_throw_eq_ok.1 goes
      obtain ⟨_, _, colon, further⟩ := bind_eq_ok.1 goes
      obtain ⟨before, blank, rfl⟩ := keyEnd_eq_ok.1 colon
      obtain ⟨draft', _, read, last⟩ := bind_eq_ok.1 further
      obtain ⟨rfl, rfl⟩ := pure_eq_ok.1 last
      obtain ⟨b, inner, rfl⟩ := Slot.field_read_eq_ok.1 read
      obtain ⟨after, t, blank', isText, rfl⟩ := (describes.reads slot mem).sound inner
      refine .inr ⟨slot.set draft b, lead, slot.key, ⟨inQuotes inside, t, before, after, blank,
        blank'⟩, rfl, isLead, isKey, .known mem (by simpa using unset) isText, ?_⟩
      simp [Member.text, inQuotes]
    | none =>
      rw [found] at goes
      obtain ⟨_, _, colon, further⟩ := bind_eq_ok.1 goes
      obtain ⟨before, blank, rfl⟩ := keyEnd_eq_ok.1 colon
      obtain ⟨_, _, skipped, last⟩ := bind_eq_ok.1 further
      obtain ⟨rfl, rfl⟩ := pure_eq_ok.1 last
      obtain ⟨after, t, blank', isValue, rfl⟩ := isValue_of_skipValue skipped
      refine .inr ⟨draft, lead, key, ⟨inQuotes inside, t, before, after, blank, blank'⟩, rfl,
        isLead, isKey, .unknown (describes.find_eq_none.1 found) isValue, ?_⟩
      simp [Member.text, inQuotes]

theorem memberStep_complete {draft draft' : δ} {isFirst : Bool} {lead : Bytes} {key : String}
    {member : Member} (isLead : IsLead isFirst lead) (isKey : IsString key member.key)
    (takes : Takes slots draft key member.value draft') (ends : Ends rest) :
    shape.memberStep (draft, isFirst) (lead ++ (member.text ++ rest)) =
      .ok (.inl (draft', false), rest) := by
  obtain ⟨inside, spells, quoted⟩ := isKey
  have whole : member.text ++ rest = quotationMark :: (inside ++ quotationMark ::
      (member.before ++ colon :: (member.after ++ (member.value ++ rest)))) := by
    simp [Member.text, quoted, inQuotes]
  rw [whole]
  refine bind_eq_ok.2 ⟨true, _, hasMember_complete isLead, ?_⟩
  rw [if_pos rfl, drop_bind, List.tail_cons]
  refine bind_eq_ok.2 ⟨key, _, string_eq_ok.2 ⟨inside, spells, rfl⟩, ?_⟩
  have colon := keyEnd_eq_ok (u := ()).2
    ⟨member.before, member.blank, rfl (a := _ ++ colon :: (member.after ++ (member.value ++ rest)))⟩
  cases takes with
  | @known slot b _ mem unset isText =>
    have read := (describes.reads slot mem).complete member.blank' isText ends
    rw [describes.find_of_mem mem]
    refine ite_throw_eq_ok.2 ⟨by simp [unset], bind_eq_ok.2 ⟨(), _, colon, ?_⟩⟩
    exact bind_eq_ok.2 ⟨_, rest, Slot.field_read_eq_ok.2 ⟨b, read, rfl⟩, rfl⟩
  | unknown other isValue =>
    rw [describes.find_eq_none.2 other]
    refine bind_eq_ok.2 ⟨(), _, colon, bind_eq_ok.2 ⟨(), rest, ?_, rfl⟩⟩
    exact skipValue_of_isValue isValue member.blank' ends

theorem memberStep_progresses : Progresses shape.memberStep := by
  rintro ⟨draft, isFirst⟩ bytes next mid h
  obtain ⟨ended, -⟩ | ⟨draft', lead, key, member, -, -, -, -, rfl⟩ := describes.memberStep_sound h
  · cases ended
  · simp only [Member.text, List.length_append, List.length_cons]
    omega

theorem takesAll_of_runs {state : δ × Bool} {last : δ}
    (run : Runs shape.memberStep state bytes last rest) :
    ∃ members row, TakesAll slots state.1 members last ∧
      (∀ m ∈ members, IsString m.1 m.2.key) ∧
      IsRow objectEnd state.2 (members.map (·.2.text)) row ∧ bytes = row ++ rest := by
  induction run with
  | @done state _ _ _ ended =>
    obtain ⟨draft, isFirst⟩ := state
    obtain ⟨same, blanks, blank, rfl⟩ | ⟨_, _, _, _, goesOn, _⟩ := describes.memberStep_sound ended
    · cases same
      exact ⟨[], _, .nil, nofun, .close blank, by simp⟩
    · cases goesOn
  | @more state _ _ _ _ _ first further ih =>
    obtain ⟨draft, isFirst⟩ := state
    obtain ⟨members, row, takesAll, keys, isRow, rfl⟩ := ih
    obtain ⟨ended, -⟩ | ⟨draft', lead, key, member, goesOn, isLead, isKey, takes, rfl⟩ :=
      describes.memberStep_sound first
    · cases ended
    · cases goesOn
      exact ⟨(key, member) :: members, _, .cons takes takesAll,
        List.forall_mem_cons.2 ⟨isKey, keys⟩, .piece isLead isRow, by simp⟩

theorem runs_of_takesAll {draft last : δ} {isFirst : Bool} {members : List (String × Member)}
    {row : Bytes} (takesAll : TakesAll slots draft members last)
    (keys : ∀ m ∈ members, IsString m.1 m.2.key)
    (isRow : IsRow objectEnd isFirst (members.map (·.2.text)) row) :
    Runs shape.memberStep (draft, isFirst) (row ++ rest) last rest := by
  induction takesAll generalizing isFirst row with
  | nil =>
    cases isRow with
    | close blank =>
      rw [List.append_assoc]
      exact .done (memberStep_objectEnd _ _ blank)
  | cons takes _ ih =>
    rw [List.forall_mem_cons] at keys
    cases isRow with
    | piece isLead isRow =>
      have step := describes.memberStep_complete isLead keys.1 takes
        (isRow.ends ends_objectEnd rest)
      rw [List.append_assoc, List.append_assoc]
      exact .more step (ih keys.2 isRow)

/-- What members did to one field: they left it, or one of them set it. -/
theorem given_of_takesAll {draft last : δ} {members : List (String × Member)}
    (takesAll : TakesAll slots draft members last) {slot : Slot δ α} (mem : slot ∈ slots) :
    valuesOf slot.key members = [] ∧ slot.get last = slot.get draft ∨
    slot.get draft = none ∧ ∃ b t, valuesOf slot.key members = [t] ∧ slot.IsText b t ∧
      slot.get last = some b := by
  induction takesAll with
  | nil => exact .inl ⟨rfl, rfl⟩
  | @cons draft next last member members takes _ ih =>
    obtain ⟨key, member⟩ := member
    cases takes with
    | @known first b _ first_mem unset isText =>
      by_cases same : first.key = slot.key
      · cases describes.eq_of_key first_mem mem same
        rw [describes.get_set slot mem draft b] at ih
        obtain ⟨none, keeps⟩ | ⟨isNone, -⟩ := ih
        · refine .inr ⟨unset, b, member.value, ?_, isText, keeps⟩
          rw [valuesOf_cons_same, none]
        · cases isNone
      · rw [valuesOf_cons_other same, ← describes.frame first first_mem slot mem same draft b]
        exact ih
    | unknown other =>
      have ne : key ≠ slot.key := fun same => other (same ▸ List.mem_map_of_mem mem)
      rw [valuesOf_cons_other ne]
      exact ih

theorem exists_takesAll {draft : δ} {members : List (String × Member)} (a : α)
    (given : ∀ slot ∈ slots, valuesOf slot.key members = [] ∨
      slot.get draft = none ∧ ∃ t, valuesOf slot.key members = [t] ∧ slot.IsText (slot.value a) t)
    (others : ∀ m ∈ members, m.1 ∉ slots.map Slot.key → IsValue m.2.value) :
    ∃ last, TakesAll slots draft members last ∧ ∀ slot ∈ slots,
      slot.get last = if valuesOf slot.key members = [] then slot.get draft
        else some (slot.value a) := by
  induction members generalizing draft with
  | nil => exact ⟨draft, .nil, fun _ _ => rfl⟩
  | cons member members ih =>
    obtain ⟨key, member⟩ := member
    rw [List.forall_mem_cons] at others
    by_cases known : key ∈ slots.map Slot.key
    · obtain ⟨first, mem, rfl⟩ := List.mem_map.1 known
      obtain none | ⟨unset, t, single, isText⟩ := given first mem
      · rw [valuesOf_cons_same] at none
        cases none
      · rw [valuesOf_cons_same] at single
        obtain ⟨rfl, none⟩ := List.cons.inj single
        -- No other member has this key, so behind it the draft may hold the field.
        have once : ∀ slot ∈ slots, valuesOf slot.key members = [] ∨
            slot.get (first.set draft (first.value a)) = .none ∧
              ∃ t, valuesOf slot.key members = [t] ∧ slot.IsText (slot.value a) t := by
          intro slot mem'
          by_cases same : first.key = slot.key
          · exact .inl (same ▸ none)
          · rw [describes.frame first mem slot mem' same, ← valuesOf_cons_other same]
            exact given slot mem'
        obtain ⟨last, takesAll, leaves⟩ := ih once others.2
        refine ⟨last, .cons (.known mem unset isText) takesAll, fun slot mem' => ?_⟩
        rw [leaves slot mem']
        by_cases same : first.key = slot.key
        · cases describes.eq_of_key mem mem' same
          rw [if_pos none, valuesOf_cons_same, if_neg nofun, describes.get_set first mem]
        · rw [valuesOf_cons_other same, describes.frame first mem slot mem' same]
    · have ne (slot : Slot δ α) (mem : slot ∈ slots) : key ≠ slot.key :=
        fun same => known (same ▸ List.mem_map_of_mem mem)
      have once : ∀ slot ∈ slots, valuesOf slot.key members = [] ∨ slot.get draft = none ∧
          ∃ t, valuesOf slot.key members = [t] ∧ slot.IsText (slot.value a) t := by
        intro slot mem
        rw [← valuesOf_cons_other (ne slot mem)]
        exact given slot mem
      obtain ⟨last, takesAll, leaves⟩ := ih once others.2
      refine ⟨last, .cons (.unknown known (others.1 known)) takesAll, fun slot mem => ?_⟩
      rw [leaves slot mem, valuesOf_cons_other (ne slot mem)]

theorem readObject_eq_ok {a : α} :
    (iterate shape.memberStep (shape.blank, true) >>= shape.complete) bytes = .ok (a, rest) ↔
      ∃ members : List (String × Member), ∃ row,
        IsRow objectEnd true (members.map (·.2.text)) row ∧
        (∀ m ∈ members, IsString m.1 m.2.key) ∧
        (∀ slot ∈ slots, (slot.part a).IsGivenBy members) ∧
        (∀ m ∈ members, m.1 ∉ slots.map Slot.key → IsValue m.2.value) ∧
        bytes = row ++ rest := by
  simp only [bind_eq_ok, iterate_eq_ok describes.memberStep_progresses, complete_eq_ok]
  constructor
  · rintro ⟨last, _, run, finish, rfl⟩
    obtain ⟨members, row, takesAll, keys, isRow, rfl⟩ := describes.takesAll_of_runs run
    refine ⟨members, row, isRow, keys, fun slot mem => ?_, isValue_of_takesAll takesAll, rfl⟩
    have value := (describes.finish last a).1 finish slot mem
    obtain ⟨none, keeps⟩ | ⟨-, b, t, single, isText, sets⟩ :=
      describes.given_of_takesAll takesAll mem
    · rw [keeps, describes.blank slot mem, Option.none_or] at value
      exact .inl ⟨none, value⟩
    · rw [sets, Option.some_or] at value
      cases value
      exact .inr ⟨t, single, isText⟩
  · rintro ⟨members, row, isRow, keys, given, others, rfl⟩
    have once (slot : Slot δ α) (mem : slot ∈ slots) : valuesOf slot.key members = [] ∨
        slot.get shape.blank = none ∧
          ∃ t, valuesOf slot.key members = [t] ∧ slot.IsText (slot.value a) t :=
      (given slot mem).imp And.left fun text => ⟨describes.blank slot mem, text⟩
    obtain ⟨last, takesAll, leaves⟩ := describes.exists_takesAll a once others
    refine ⟨last, rest, describes.runs_of_takesAll takesAll keys isRow,
      (describes.finish last a).2 fun slot mem => ?_, rfl⟩
    rw [leaves slot mem]
    obtain ⟨none, mayMiss⟩ | ⟨t, single, -⟩ := Slot.part_isGivenBy.1 (given slot mem)
    · rw [if_pos none, describes.blank slot mem, Option.none_or, mayMiss]
    · rw [single, if_neg nofun, Option.some_or]

end Describes

end

end ProjectClient.Json

import ProjectClient.Json.Writer
import ProjectClient.Proofs.Json.Grammar
import ProjectClient.Proofs.Json.Records

/-! What is written is a text of the grammar, whatever the characters, the numbers and the
layout. -/
namespace ProjectClient.Json

open Text (utf8 utf8_eq_flatMap utf8_append)

/-! ## Strings -/

def digitByte (n : Nat) : UInt8 :=
  n.digitChar.val.toUInt8

theorem utf8EncodeChar_digitChar {n : Nat} (small : n < 16) :
    String.utf8EncodeChar n.digitChar = [digitByte n] ∧
      Reader.hexDigit? (digitByte n) = some n := by
  revert n
  decide

theorem isEscape_numberEscape {c : Char} (low : c.toNat < 0x20) :
    IsEscape c ((numberEscape c).flatMap String.utf8EncodeChar) := by
  obtain ⟨highByte, highValue⟩ := @utf8EncodeChar_digitChar (c.toNat / 16) (by omega)
  obtain ⟨lowByte, lowValue⟩ := @utf8EncodeChar_digitChar (c.toNat % 16) (by omega)
  have bytes : (numberEscape c).flatMap String.utf8EncodeChar =
      backslash :: letterU :: [0x30, 0x30, digitByte (c.toNat / 16), digitByte (c.toNat % 16)] := by
    simp only [numberEscape, List.flatMap_cons, highByte, lowByte]
    rfl
  rw [bytes]
  refine .unit (n := c.toNat) ⟨0, 0, c.toNat / 16, c.toNat % 16, ?_, by omega⟩ rfl
  simp only [List.map_cons, highValue, lowValue]
  rfl

theorem spells_escapedChar (c : Char) {cs : List Char} {t : Bytes} (rest : Spells cs t) :
    Spells (c :: cs) ((escapedChar c).flatMap String.utf8EncodeChar ++ t) := by
  have letter {d : Char} {b : UInt8} (known : (b, c) ∈ letterEscapes)
      (byte : String.utf8EncodeChar d = [b]) :
      Spells (c :: cs) (['\\', d].flatMap String.utf8EncodeChar ++ t) := by
    have spelled := Spells.escape (.letter known) rest
    rw [List.flatMap_cons, List.flatMap_singleton, byte]
    exact spelled
  unfold escapedChar
  split
  · rename_i mark
    rcases mark with rfl | rfl
    · exact letter (b := quotationMark) (by decide) rfl
    · exact letter (b := backslash) (by decide) rfl
  rename_i notMark
  split
  · rename_i backspace
    exact letter (b := 0x62) (backspace ▸ by decide) rfl
  split
  · rename_i feed
    exact letter (b := letterF) (feed ▸ by decide) rfl
  split
  · rename_i line
    exact letter (b := letterN) (line ▸ by decide) rfl
  split
  · rename_i back
    exact letter (b := 0x72) (back ▸ by decide) rfl
  split
  · rename_i tab
    exact letter (b := letterT) (tab ▸ by decide) rfl
  split
  · rename_i low
    exact .escape (isEscape_numberEscape low) rest
  · rename_i visible
    have raw := Spells.raw (Nat.le_of_not_lt visible) (not_or.1 notMark) rest
    simpa using raw

theorem isString_ofString (text : String) : IsString text (utf8 (ofString text)) := by
  have spelled (cs : List Char) :
      Spells cs ((cs.flatMap escapedChar).flatMap String.utf8EncodeChar) := by
    induction cs with
    | nil => exact .nil
    | cons c cs ih =>
      rw [List.flatMap_cons, List.flatMap_append]
      exact spells_escapedChar c ih
  refine ⟨_, spelled text.toList, ?_⟩
  rw [utf8_eq_flatMap, ofString, String.toList_ofList, List.flatMap_append, List.flatMap_cons]
  rfl

theorem isOptional_ofOptional (text? : Option String) :
    IsOptional text? (utf8 (ofOptional ofString text?)) := by
  cases text? with
  | none => simp [IsOptional, ofOptional, utf8_eq_flatMap, nullText]; rfl
  | some text => exact isString_ofString text

/-! ## Numbers -/

/-- The digits of a number have its value, and none of them is a zero too many. -/
theorem isWhole_repr (n : Nat) : IsWhole (utf8 n.repr) ∧ Reader.decimal (utf8 n.repr) = n := by
  have digit {d : Nat} (small : d < 10) : String.utf8EncodeChar d.digitChar = [digitByte d] ∧
      isDigit (digitByte d) ∧ (digitByte d).toNat - 0x30 = d ∧ (digitByte d = zero ↔ d = 0) := by
    revert d
    decide
  induction n using Nat.base_induction 10 (by decide) with
  | single d small =>
    obtain ⟨byte, isDigit, value, isZero⟩ := digit small
    rw [Nat.repr_of_lt small, utf8_eq_flatMap, String.toList_singleton, List.flatMap_singleton,
      byte]
    refine ⟨isWhole_cons.2 ?_, by simpa [Reader.decimal] using value⟩
    by_cases zero : d = 0
    · exact .inl ⟨isZero.2 zero, rfl⟩
    · exact .inr ⟨mt isZero.1 zero, isDigit, List.forall_mem_nil _⟩
  | digit m d small pos ih =>
    obtain ⟨byte, isDigit, value, -⟩ := digit small
    obtain ⟨isWhole, worth⟩ := ih
    have bytes : utf8 (10 * m + d).repr = utf8 m.repr ++ [digitByte d] := by
      rw [Nat.repr_of_ge (by omega), Nat.mul_add_div (by decide), Nat.div_eq_of_lt small,
        Nat.mul_add_mod, Nat.mod_eq_of_lt small, Nat.add_zero, utf8_append,
        utf8_eq_flatMap (String.singleton _), String.toList_singleton, List.flatMap_singleton, byte]
    rw [bytes]
    constructor
    · obtain ⟨first, t, same, -⟩ := isWhole.1.cons
      rw [same] at isWhole worth ⊢
      rcases isWhole_cons.1 isWhole with ⟨rfl, rfl⟩ | ⟨other, firstDigit, digits⟩
      · have nothing : Reader.decimal [zero] = 0 := rfl
        omega
      · have all := List.forall_mem_append.2 ⟨digits, List.forall_mem_singleton.2 isDigit⟩
        exact isWhole_cons.2 (.inr ⟨other, firstDigit, all⟩)
    · rw [Reader.decimal, List.foldl_append]
      simp only [Reader.decimal] at worth
      simp only [worth, List.foldl_cons, List.foldl_nil, value, Nat.mul_comm m]

theorem isOrdinal_toString (n : Int64) : IsOrdinal n (utf8 (toString n)) := by
  have text : toString n = n.toInt.repr := rfl
  rw [text, Int.repr_eq_if]
  split
  · obtain ⟨isWhole, value⟩ := isWhole_repr n.toInt.toNat
    exact .natural isWhole (by omega)
  · obtain ⟨isWhole, value⟩ := isWhole_repr (-n.toInt).toNat
    have sign : utf8 "-" = [minus] := by rw [utf8_eq_flatMap]; rfl
    rw [utf8_append, sign, List.singleton_append]
    refine .negative isWhole (fun nothing => ?_) (by rw [value]; omega)
    have none : Reader.decimal [zero] = 0 := rfl
    rw [nothing, none] at value
    omega

/-! ## Lists and objects -/

theorem utf8_intercalate (separator : String) (texts : List String) :
    utf8 (separator.intercalate texts) = (utf8 separator).intercalate (texts.map utf8) := by
  induction texts with
  | nil => simp [utf8_eq_flatMap]
  | cons text texts ih =>
    cases texts with
    | nil => simp
    | cons next texts =>
      rw [String.intercalate_cons_cons, utf8_append, utf8_append, ih, List.map_cons, List.map_cons,
        List.map_cons, List.intercalate_cons_cons]

theorem intercalate_cons (separator piece : Bytes) (pieces : List Bytes) :
    separator.intercalate (piece :: pieces) = piece ++ pieces.flatMap (separator ++ ·) := by
  induction pieces generalizing piece with
  | nil => simp
  | cons next pieces ih => rw [List.intercalate_cons_cons, ih]; simp

theorem isRow_intercalate (close : UInt8) {separator first indent last : Bytes}
    (isLead : IsLead false separator) (blankFirst : AllBlank first) (blank : AllBlank indent)
    (blankLast : AllBlank last) (pieces : List Bytes) :
    IsRow close true pieces
      (first ++ separator.intercalate (pieces.map (indent ++ ·)) ++ last ++ [close]) := by
  have further (more : List Bytes) : IsRow close false more
      ((more.map (indent ++ ·)).flatMap (separator ++ ·) ++ (last ++ [close])) := by
    induction more with
    | nil => exact .close blankLast
    | cons piece more ih =>
      have row : IsRow close false (piece :: more) _ := .piece (isLead.append blank) ih
      simpa using row
  cases pieces with
  | nil =>
    have row : IsRow close true [] (first ++ last ++ [close]) :=
      .close (allBlank_append.2 ⟨blankFirst, blankLast⟩)
    simpa using row
  | cons piece more =>
    have row : IsRow close true (piece :: more) _ :=
      .piece (.first (allBlank_append.2 ⟨blankFirst, blank⟩)) (further more)
    rw [List.map_cons, intercalate_cons]
    simpa using row

theorem isLead_comma {blanks : Bytes} (blank : AllBlank blanks) :
    IsLead false (comma :: blanks) :=
  .comma allBlank_nil blank

theorem isListOf_ofList {α : Type} {IsText : α → Bytes → Prop} {write : α → String}
    {values : List α} (written : ∀ a ∈ values, IsText a (utf8 (write a))) :
    IsListOf IsText values (utf8 (ofList write values)) := by
  have marks : utf8 "[" = [listStart] ∧ utf8 "," = [comma] ∧ utf8 "]" = [listEnd] := by
    simp only [utf8_eq_flatMap]
    decide
  refine ⟨values.map fun a => utf8 (write a), ⟨_, isRow_intercalate listEnd
    (isLead_comma allBlank_nil) allBlank_nil allBlank_nil allBlank_nil _, ?_⟩, ?_⟩
  · rw [ofList, utf8_append, utf8_append, utf8_intercalate, marks.1, marks.2.1, marks.2.2]
    simp [Function.comp_def]
  · rw [List.forall₂_map_right_iff, List.forall₂_same]
    exact written

theorem valuesOf_of_nodup {members : List (String × Member)} (keys : (members.map (·.1)).Nodup)
    {m : String × Member} (mem : m ∈ members) : valuesOf m.1 members = [m.2.value] := by
  induction members with
  | nil => cases mem
  | cons first members ih =>
    rw [List.map_cons, List.nodup_cons, List.mem_map] at keys
    rcases List.mem_cons.1 mem with rfl | mem
    · have none : valuesOf m.1 members = [] := by
        rw [valuesOf, List.map_eq_nil_iff, List.filter_eq_nil_iff]
        intro other inside same
        exact keys.1 ⟨other, inside, of_decide_eq_true same⟩
      rw [valuesOf_cons_same, none]
    · have ne : first.1 ≠ m.1 := fun same => keys.1 ⟨m, mem, same.symm⟩
      rw [valuesOf_cons_other ne]
      exact ih keys.2 mem

def writtenMember (after : Bytes) (blank : AllBlank after) (field : String × String) :
    String × Member :=
  (field.1, {
    key := utf8 (ofString field.1), value := utf8 field.2, before := [], after
    blank := allBlank_nil, blank' := blank })

abbrev Writes (parts : List Part) (fields : List (String × String)) : Prop :=
  List.Forall₂ (fun part field => part.key = field.1 ∧ part.Text (utf8 field.2)) parts fields

theorem Writes.keys {parts : List Part} {fields : List (String × String)}
    (writes : Writes parts fields) : parts.map (·.key) = fields.map (·.1) := by
  induction writes with
  | nil => rfl
  | cons first _ ih => rw [List.map_cons, List.map_cons, first.1, ih]

theorem Writes.exists_field {parts : List Part} {fields : List (String × String)}
    (writes : Writes parts fields) {part : Part} (mem : part ∈ parts) :
    ∃ field ∈ fields, part.key = field.1 ∧ part.Text (utf8 field.2) := by
  induction writes with
  | nil => cases mem
  | cons first _ ih =>
    rcases List.mem_cons.1 mem with rfl | mem
    · exact ⟨_, List.mem_cons_self, first⟩
    · obtain ⟨field, inside, found⟩ := ih mem
      exact ⟨field, List.mem_cons_of_mem _ inside, found⟩

theorem Writes.isRecord {parts : List Part} {fields : List (String × String)}
    (writes : Writes parts fields) (keys : (parts.map (·.key)).Nodup) {after t : Bytes}
    (blank : AllBlank after)
    (isObject : IsObject ((fields.map (writtenMember after blank)).map (·.2)) t) :
    IsRecord parts t := by
  have same : (fields.map (writtenMember after blank)).map (·.1) = parts.map (·.key) := by
    rw [writes.keys, List.map_map]
    rfl
  refine .inl ⟨fields.map (writtenMember after blank), isObject, ?_, fun part mem => .inr ?_, ?_⟩
  · exact List.forall_mem_map.2 fun field _ => isString_ofString field.1
  · obtain ⟨field, inside, key, isText⟩ := writes.exists_field mem
    refine ⟨_, ?_, isText⟩
    rw [key]
    exact valuesOf_of_nodup (same ▸ keys) (List.mem_map_of_mem inside)
  · intro m mem other
    rw [← same] at other
    exact absurd (List.mem_map_of_mem mem) other

theorem text_writtenMember (after : Bytes) (blank : AllBlank after) (field : String × String) :
    (writtenMember after blank field).2.text =
      utf8 (ofString field.1) ++ colon :: (after ++ utf8 field.2) := by
  simp [writtenMember, Member.text]

theorem Writes.isRecord_ofMembers {parts : List Part} {fields : List (String × String)}
    (writes : Writes parts fields) (keys : (parts.map (·.key)).Nodup) :
    IsRecord parts (utf8 (ofMembers fields)) := by
  have marks : utf8 "\x7b" = [objectStart] ∧ utf8 "," = [comma] ∧ utf8 ":" = [colon] ∧
      utf8 "\x7d" = [objectEnd] := by
    simp only [utf8_eq_flatMap]
    decide
  refine writes.isRecord keys allBlank_nil ⟨_, isRow_intercalate objectEnd
    (isLead_comma allBlank_nil) allBlank_nil allBlank_nil allBlank_nil _, ?_⟩
  rw [ofMembers, utf8_append, utf8_append, utf8_intercalate, marks.1, marks.2.1, marks.2.2.2]
  simp [Function.comp_def, text_writtenMember, marks.2.2.1]

theorem Writes.isRecord_ofMembersOnLines {parts : List Part} {fields : List (String × String)}
    (writes : Writes parts fields) (keys : (parts.map (·.key)).Nodup) :
    IsRecord parts (utf8 (ofMembersOnLines fields)) := by
  have marks : utf8 "\x7b\n" = [objectStart, 0x0a] ∧ utf8 ",\n" = [comma, 0x0a] ∧
      utf8 "  " = [0x20, 0x20] ∧ utf8 ": " = [colon, 0x20] ∧
      utf8 "\n\x7d" = [0x0a, objectEnd] := by
    simp only [utf8_eq_flatMap]
    decide
  have blanks : AllBlank [0x0a] ∧ AllBlank [0x20, 0x20] ∧ AllBlank [0x20] := by
    simp [AllBlank, isBlank]
  refine writes.isRecord keys blanks.2.2 ⟨_, isRow_intercalate objectEnd
    (isLead_comma blanks.1) blanks.1 blanks.2.1 blanks.1 _, ?_⟩
  rw [ofMembersOnLines, utf8_append, utf8_append, utf8_intercalate, marks.1, marks.2.1,
    marks.2.2.2.2]
  simp [Function.comp_def, text_writtenMember, marks.2.2.1, marks.2.2.2.1]

end ProjectClient.Json

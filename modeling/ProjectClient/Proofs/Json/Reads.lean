import ProjectClient.Proofs.Json.Values
import ProjectClient.Json.Record

/-! Readers of values of a known type. -/
namespace ProjectClient.Json

/-- A reader takes the texts of a value and only them, with blanks in front. -/
structure Reads {α : Type} (reader : Reader α) (IsText : α → Bytes → Prop) : Prop where
  isValue {a : α} {t : Bytes} : IsText a t → IsValue t
  sound {a : α} {bytes rest : Bytes} : reader bytes = .ok (a, rest) →
    ∃ blanks t, AllBlank blanks ∧ IsText a t ∧ bytes = blanks ++ (t ++ rest)
  complete {a : α} {blanks t rest : Bytes} : AllBlank blanks → IsText a t → Ends rest →
    reader (blanks ++ (t ++ rest)) = .ok (a, rest)

theorem IsOrdinal.isNumber {n : Int64} {t : Bytes} (isOrdinal : IsOrdinal n t) : IsNumber t := by
  cases isOrdinal with
  | natural isWhole =>
    simpa using IsNumber.parts (.inl rfl) isWhole .none .none
  | negative isWhole =>
    simpa using IsNumber.parts (.inr rfl) isWhole .none .none

theorem Reads.unique {α : Type} {reader : Reader α} {IsText : α → Bytes → Prop}
    (reads : Reads reader IsText) {a a' : α} {t : Bytes} (isText : IsText a t)
    (isText' : IsText a' t) : a = a' := by
  have nothing : Ends [] := nofun
  have read := reads.complete allBlank_nil isText nothing
  rw [reads.complete allBlank_nil isText' nothing] at read
  exact (Prod.mk.inj (Except.ok.inj read)).1.symm

theorem isValue_of_forall₂ {α : Type} {IsText : α → Bytes → Prop} {values : List α}
    {elements : List Bytes} (texts : List.Forall₂ IsText values elements)
    (isValue : ∀ a t, IsText a t → IsValue t) : ∀ e ∈ elements, IsValue e := by
  induction texts with
  | nil => exact nofun
  | cons isText _ ih => exact List.forall_mem_cons.2 ⟨isValue _ _ isText, ih⟩

theorem IsListOf.isValue {α : Type} {IsText : α → Bytes → Prop} {values : List α} {t : Bytes}
    (isListOf : IsListOf IsText values t) (isValue : ∀ a t, IsText a t → IsValue t) :
    IsValue t := by
  obtain ⟨elements, isList, texts⟩ := isListOf
  exact .list isList (isValue_of_forall₂ texts isValue)

namespace Reader

variable {α : Type} {bytes rest : Bytes} {u : Unit}

theorem reads_ordinal : Reads ordinal IsOrdinal where
  isValue isOrdinal := .number isOrdinal.isNumber
  sound := isOrdinal_of_ordinal
  complete blank isOrdinal ends := ordinal_of_isOrdinal blank isOrdinal ends.stops

theorem reads_text : Reads text IsString where
  isValue isString := .string isString.isLooseString
  sound {text _ rest} h := by
    rw [Reader.text, next?_bind_eq_ok (fun _ => throw_ne_ok)] at h
    obtain ⟨blanks, c, t, blank, -, rfl, h⟩ := h
    split at h
    · contradiction
    · cases ‹some c = some quotationMark›
      obtain ⟨inside, spells, same⟩ := string_eq_ok.1 h
      cases same
      exact ⟨blanks, _, blank, ⟨inside, spells, rfl⟩, by simp [inQuotes]⟩
    · exact absurd h (mismatch_fails _ _ _ _)
  complete {text blanks _ rest} blank isString _ := by
    obtain ⟨inside, spells, rfl⟩ := isString
    rw [Reader.text, inQuotes, List.cons_append, next?_bind_append blank rfl]
    exact string_eq_ok.2 ⟨inside, spells, by simp⟩

theorem reads_optionalText : Reads optionalText IsOptional where
  isValue {value _} h := by
    cases value with
    | none =>
      cases h
      exact .nullWord
    | some text => exact reads_text.isValue h
  sound {value bytes rest} h := by
    rw [optionalText, next?_bind_eq_ok ?atEnd] at h
    case atEnd =>
      intro _ h
      obtain ⟨_, _, h, -⟩ := bind_eq_ok.1 h
      cases h
    obtain ⟨blanks, c, t, blank, -, rfl, h⟩ := h
    split at h
    · cases ‹some c = some letterN›
      rw [StateT.run, drop_bind, bind_eq_ok] at h
      obtain ⟨_, _, word, h⟩ := h
      cases word_eq_ok.1 word
      cases h
      exact ⟨blanks, nullText, blank, rfl, rfl⟩
    · obtain ⟨text, _, read, h⟩ := bind_eq_ok.1 h
      obtain ⟨rfl, rfl⟩ := pure_eq_ok.1 h
      obtain ⟨blanks', t, blank', isString, same⟩ := reads_text.sound read
      exact ⟨blanks ++ blanks', t, allBlank_append.2 ⟨blank, blank'⟩, isString, by simp [same]⟩
  complete {value blanks t rest} blank isText ends := by
    cases value with
    | none =>
      cases isText
      rw [optionalText, nullText, List.cons_append, next?_bind_append blank rfl]
      have passed : restOfNull ([0x75, 0x6c, 0x6c] ++ rest) = .ok ((), rest) := word_eq_ok.2 rfl
      exact bind_of_ok (f := fun _ => pure none) passed
    | some text =>
      have read := reads_text.complete allBlank_nil isText ends
      obtain ⟨inside, spells, rfl⟩ := isText
      rw [optionalText, inQuotes, List.cons_append, next?_bind_append blank rfl]
      exact bind_of_ok (f := fun text => pure (some text)) read

/-! ## Lists -/

theorem hasElement_sound {isFirst more : Bool} (h : hasElement isFirst bytes = .ok (more, rest)) :
    more = false ∧ (∃ blanks s, AllBlank blanks ∧ rest = listEnd :: s ∧ bytes = blanks ++ rest) ∨
    more = true ∧ ∃ lead, IsLead isFirst lead ∧ bytes = lead ++ rest := by
  rw [hasElement, next?_bind_eq_ok (fun _ => throw_ne_ok)] at h
  obtain ⟨blanks, c, t, blank, -, rfl, h⟩ := h
  split at h
  · contradiction
  · cases ‹some c = some listEnd›
    cases h
    exact .inl ⟨rfl, blanks, t, blank, rfl, rfl⟩
  · cases ‹some c = some _›
    cases isFirst with
    | true =>
      cases h
      exact .inr ⟨rfl, blanks, .first blank, rfl⟩
    | false =>
      obtain ⟨rfl, h⟩ := ite_else_throw_eq_ok.1 h
      rw [drop_bind, next?_bind_eq_ok (fun _ => throw_ne_ok)] at h
      obtain ⟨after, d, s, blank', -, same, h⟩ := h
      split at h
      · contradiction
      · exact absurd h throw_ne_ok
      · cases h
        cases same
        exact .inr ⟨rfl, blanks ++ comma :: after, .comma blank blank', by simp⟩

theorem hasElement_listEnd (isFirst : Bool) {blanks : Bytes} (blank : AllBlank blanks)
    (rest : Bytes) :
    hasElement isFirst (blanks ++ listEnd :: rest) = .ok (false, listEnd :: rest) := by
  rw [hasElement, next?_bind_append blank rfl]
  rfl

theorem hasElement_complete {isFirst : Bool} {lead t : Bytes} (isLead : IsLead isFirst lead)
    (isValue : IsValue t) (rest : Bytes) :
    hasElement isFirst (lead ++ (t ++ rest)) = .ok (true, t ++ rest) := by
  obtain ⟨c, s, rfl, solid, -, notEnd, -⟩ := isValue.cons
  cases isLead with
  | first blank =>
    rw [hasElement, List.cons_append, next?_bind_append blank solid]
    split
    · contradiction
    · cases ‹some c = some listEnd›
      exact absurd rfl notEnd
    · rfl
  | comma blank blank' =>
    simp only [List.append_assoc, List.cons_append]
    rw [hasElement, next?_bind_append blank rfl]
    change (drop >>= _ : Reader Bool) _ = _
    rw [drop_bind, List.tail_cons, next?_bind_append blank' solid]
    split
    · contradiction
    · cases ‹some c = some listEnd›
      exact absurd rfl notEnd
    · rfl

theorem endOfList_eq_ok :
    endOfList bytes = .ok (u, rest) ↔
      ∃ blanks, AllBlank blanks ∧ bytes = blanks ++ listEnd :: rest := by
  rw [endOfList, next?_bind_eq_ok (fun _ => throw_ne_ok)]
  constructor
  · rintro ⟨blanks, c, t, blank, -, rfl, h⟩
    split at h
    · contradiction
    · cases ‹some c = some listEnd›
      cases h
      exact ⟨blanks, blank, rfl⟩
    · rw [StateT.run, drop_bind, next?_bind] at h
      split at h <;> exact absurd h throw_ne_ok
    · exact absurd h throw_ne_ok
  · rintro ⟨blanks, blank, rfl⟩
    exact ⟨blanks, listEnd, rest, blank, rfl, rfl, rfl⟩

variable {element : Reader α} {IsText : α → Bytes → Prop}

theorem listStep_sound (reads : Reads element IsText) {reversed : List α}
    {next : List α ⊕ List α} (h : listStep element reversed bytes = .ok (next, rest)) :
    (next = .inr reversed.reverse ∧ ∃ blanks, AllBlank blanks ∧ bytes = blanks ++ listEnd :: rest) ∨
    ∃ a lead t, next = .inl (a :: reversed) ∧ IsLead reversed.isEmpty lead ∧ IsText a t ∧
      bytes = lead ++ (t ++ rest) := by
  rw [listStep, bind_eq_ok] at h
  obtain ⟨more, mid, looks, h⟩ := h
  obtain ⟨rfl, blanks, s, blank, rfl, rfl⟩ | ⟨rfl, lead, isLead, rfl⟩ := hasElement_sound looks
  · cases h
    exact .inl ⟨rfl, blanks, blank, rfl⟩
  · obtain ⟨a, _, read, h⟩ := bind_eq_ok.1 h
    obtain ⟨rfl, rfl⟩ := pure_eq_ok.1 h
    obtain ⟨blanks, t, blank, isText, rfl⟩ := reads.sound read
    exact .inr ⟨a, lead ++ blanks, t, rfl, isLead.append blank, isText, by simp⟩

theorem listStep_progresses (reads : Reads element IsText) : Progresses (listStep element) := by
  intro reversed bytes next mid h
  obtain ⟨ended, -⟩ | ⟨a, lead, t, -, -, isText, rfl⟩ := listStep_sound reads h
  · cases ended
  · obtain ⟨c, s, rfl, -⟩ := (reads.isValue isText).cons
    simp only [List.length_append, List.length_cons]
    omega

theorem row_of_runs (reads : Reads element IsText) {reversed values : List α}
    (run : Runs (listStep element) reversed bytes values rest) :
    ∃ vs es row, values = reversed.reverse ++ vs ∧ List.Forall₂ IsText vs es ∧
      IsRow listEnd reversed.isEmpty es row ∧ bytes = row ++ rest := by
  induction run with
  | done last =>
    obtain ⟨same, blanks, blank, rfl⟩ | ⟨a, _, _, goesOn, _⟩ := listStep_sound reads last
    · cases same
      exact ⟨[], [], _, by simp, .nil, .close blank, by simp⟩
    · cases goesOn
  | more first further ih =>
    obtain ⟨vs, es, row, rfl, texts, isRow, rfl⟩ := ih
    obtain ⟨ended, -⟩ | ⟨a, lead, t, goesOn, isLead, isText, rfl⟩ := listStep_sound reads first
    · cases ended
    · cases goesOn
      exact ⟨a :: vs, t :: es, _, by simp, .cons isText texts, .piece isLead isRow, by simp⟩

theorem runs_of_row (reads : Reads element IsText) {reversed vs : List α} {es : List Bytes}
    {row : Bytes} (texts : List.Forall₂ IsText vs es)
    (isRow : IsRow listEnd reversed.isEmpty es row) :
    Runs (listStep element) reversed (row ++ rest) (reversed.reverse ++ vs) rest := by
  induction texts generalizing reversed row with
  | nil =>
    cases isRow with
    | @close _ blanks blank =>
      have looks := hasElement_listEnd reversed.isEmpty blank rest
      rw [List.append_assoc, List.append_nil]
      exact .done (bind_eq_ok.2 ⟨false, _, looks, rfl⟩)
  | @cons a t vs es isText texts ih =>
    cases isRow with
    | @piece _ lead _ row _ isLead isRow =>
      have looks := hasElement_complete isLead (reads.isValue isText) (row ++ rest)
      have read := reads.complete allBlank_nil isText (isRow.ends ends_listEnd rest)
      have run := @ih (a :: reversed) row isRow
      rw [List.reverse_cons, List.append_assoc] at run
      refine .more (bind_eq_ok.2 ⟨true, _, ?_, bind_eq_ok.2 ⟨a, _, read, rfl⟩⟩) run
      rw [List.append_assoc, List.append_assoc]
      exact looks

theorem reads_list (reads : Reads element IsText) : Reads (list element) (IsListOf IsText) where
  isValue h := h.isValue fun _ _ => reads.isValue
  sound {values bytes rest} h := by
    rw [list, next?_bind_eq_ok (fun _ => throw_ne_ok)] at h
    obtain ⟨blanks, c, t, blank, -, rfl, h⟩ := h
    split at h
    · contradiction
    · cases ‹some c = some listStart›
      have run := (iterate_eq_ok (listStep_progresses reads)).1 h
      obtain ⟨vs, es, row, rfl, texts, isRow, same⟩ := row_of_runs reads run
      cases same
      exact ⟨blanks, _, blank, ⟨es, ⟨row, isRow, rfl⟩, texts⟩, rfl⟩
    · exact absurd h (mismatch_fails _ _ _ _)
  complete {values blanks t rest} blank h _ := by
    obtain ⟨es, ⟨row, isRow, rfl⟩, texts⟩ := h
    rw [list, List.cons_append, next?_bind_append blank rfl]
    exact (iterate_eq_ok (listStep_progresses reads)).2 (runs_of_row reads texts isRow)

end Reader

end ProjectClient.Json

import ProjectClient.Proofs.Json.Numerals
import ProjectClient.Proofs.Json.Strings

/-! Values that nothing looks at. The reader keeps the open brackets in a stack, so what it reads in
one go is a value and then the rest of every container around it. -/
namespace ProjectClient.Json

variable {t rest : Bytes}

theorem IsLead.append {isFirst : Bool} {lead blanks : Bytes} (isLead : IsLead isFirst lead)
    (blank : AllBlank blanks) : IsLead isFirst (lead ++ blanks) := by
  cases isLead with
  | first blank' => exact .first (allBlank_append.2 ⟨blank', blank⟩)
  | @comma before after blank' blank'' =>
    rw [List.append_assoc, List.cons_append]
    exact .comma blank' (allBlank_append.2 ⟨blank'', blank⟩)

theorem AllBlank.ends {blanks : Bytes} (blank : AllBlank blanks) (ends : Ends rest) :
    Ends (blanks ++ rest) := by
  cases blanks with
  | nil => exact ends
  | cons b blanks =>
    rintro b' h
    cases h
    exact .inl (blank b List.mem_cons_self)

theorem IsRow.ends {close : UInt8} {pieces : List Bytes} (closing : Ends [close])
    (row : IsRow close false pieces t) (rest : Bytes) : Ends (t ++ rest) := by
  cases row with
  | close blank =>
    rw [List.append_assoc]
    exact blank.ends (show Ends (close :: rest) from closing)
  | piece isLead row =>
    cases isLead with
    | comma blank =>
      simp only [List.append_assoc, List.cons_append]
      exact blank.ends fun _ h => by cases h; exact .inr (.inl rfl)

theorem ends_listEnd : Ends [listEnd] := fun _ h => by cases h; exact .inr (.inr (.inl rfl))

theorem ends_objectEnd : Ends [objectEnd] := fun _ h => by cases h; exact .inr (.inr (.inr rfl))

theorem IsValue.cons (isValue : IsValue t) :
    ∃ b s, t = b :: s ∧ isBlank b = false ∧ b ≠ comma ∧ b ≠ listEnd ∧ b ≠ objectEnd := by
  cases isValue with
  | nullWord => exact ⟨_, _, rfl, by decide⟩
  | trueWord => exact ⟨_, _, rfl, by decide⟩
  | falseWord => exact ⟨_, _, rfl, by decide⟩
  | number isNumber =>
    obtain ⟨b, s, rfl, rfl | digit⟩ := isNumber.cons
    · exact ⟨_, _, rfl, by decide⟩
    · refine ⟨b, _, rfl, isBlank_of_isDigit digit, ?_⟩
      refine ⟨?_, ?_, ?_⟩ <;>
      · rintro rfl
        cases digit
  | string isString =>
    obtain ⟨inside, -, rfl⟩ := isString
    exact ⟨_, _, rfl, by decide⟩
  | list isList =>
    obtain ⟨row, -, rfl⟩ := isList
    exact ⟨_, _, rfl, by decide⟩
  | object isObject =>
    obtain ⟨row, -, rfl⟩ := isObject
    exact ⟨_, _, rfl, by decide⟩

inductive Closes : List Container → Bytes → Prop where
  | nil : Closes [] []
  | list {elements : List Bytes} {outer : List Container} {row c : Bytes}
    (isRow : IsRow listEnd false elements row) (values : ∀ e ∈ elements, IsValue e)
    (rest : Closes outer c) : Closes (.list :: outer) (row ++ c)
  | object {members : List Member} {outer : List Container} {row c : Bytes}
    (isRow : IsRow objectEnd false (members.map Member.text) row)
    (keys : ∀ m ∈ members, IsLooseString m.key) (values : ∀ m ∈ members, IsValue m.value)
    (rest : Closes outer c) : Closes (.object :: outer) (row ++ c)

/-- A value in its place, and then the rest of every container around it. -/
inductive Fills (stack : List Container) : Bytes → Prop where
  | value {blanks t c : Bytes} (blank : AllBlank blanks) (isValue : IsValue t)
    (closes : Closes stack c) : Fills stack (blanks ++ t ++ c)

/-- Bytes up to the place of a value, such that a property holds once the place is filled, or bytes
with the property if no place is left. -/
def Awaits (P : Bytes → Prop) (taken : Bytes) : Option (List Container) → Prop
  | none => P taken
  | some next => ∀ {s : Bytes}, Fills next s → P (taken ++ s)

theorem Awaits.behind {P Q : Bytes → Prop} {front taken : Bytes} {left : Option (List Container)}
    (goesOn : ∀ c, P c → Q (front ++ c)) (awaits : Awaits P taken left) :
    Awaits Q (front ++ taken) left := by
  cases left with
  | none => exact goesOn _ awaits
  | some next =>
    intro s fills
    rw [List.append_assoc]
    exact goesOn _ (awaits fills)

def Moves (stack : List Container) : Bytes → Option (List Container) → Prop :=
  Awaits (Closes stack)

def Opens (stack : List Container) : Bytes → Option (List Container) → Prop :=
  Awaits (Fills stack)

section

variable {stack outer : List Container} {left : Option (List Container)}
  {blanks blanks' key after taken : Bytes}

theorem Moves.leaveList (blank : AllBlank blanks) (moves : Moves outer taken left) :
    Moves (.list :: outer) (blanks ++ [listEnd] ++ taken) left :=
  Awaits.behind (fun _ closes => .list (.close blank) nofun closes) moves

theorem Moves.leaveObject (blank : AllBlank blanks) (moves : Moves outer taken left) :
    Moves (.object :: outer) (blanks ++ [objectEnd] ++ taken) left :=
  Awaits.behind (fun _ closes => @Closes.object [] _ _ _ (.close blank) nofun nofun closes) moves

theorem Moves.toElement (blank : AllBlank blanks) :
    Moves (.list :: outer) (blanks ++ [comma]) (some (.list :: outer)) := by
  intro s fills
  obtain ⟨blank', isValue, closes⟩ := fills
  cases closes with
  | list isRow values closes =>
    have row := Closes.list (.piece (.comma blank blank') isRow)
      (List.forall_mem_cons.2 ⟨isValue, values⟩) closes
    simpa using row

theorem Moves.toMember (blank : AllBlank blanks) (blank' : AllBlank blanks')
    (isKey : IsLooseString key) (blank'' : AllBlank after) :
    Moves (.object :: outer) (blanks ++ comma :: (blanks' ++ (key ++ after ++ [colon])))
      (some (.object :: outer)) := by
  intro s fills
  obtain @⟨behind, t, _, solid, isValue, closes⟩ := fills
  cases closes with
  | @object members _ row c isRow keys values closes =>
    let member : Member := ⟨key, t, after, behind, blank'', solid⟩
    have row := @Closes.object (member :: members) _ _ _
      (.piece (.comma blank blank') isRow) (List.forall_mem_cons.2 ⟨isKey, keys⟩)
      (List.forall_mem_cons.2 ⟨isValue, values⟩) closes
    simpa [Member.text, member] using row

theorem Opens.value (blank : AllBlank blanks) (isValue : IsValue key)
    (moves : Moves stack taken left) : Opens stack (blanks ++ key ++ taken) left :=
  Awaits.behind (fun _ closes => .value blank isValue closes) moves

theorem Opens.toElement (blank : AllBlank blanks) (blank' : AllBlank blanks') :
    Opens stack (blanks ++ listStart :: blanks') (some (.list :: stack)) := by
  intro s fills
  obtain ⟨blank'', isValue, closes⟩ := fills
  cases closes with
  | list isRow values closes =>
    have lead := allBlank_append.2 ⟨blank', blank''⟩
    have isList := IsValue.list ⟨_, .piece (.first lead) isRow, rfl⟩
      (List.forall_mem_cons.2 ⟨isValue, values⟩)
    have fills := Fills.value blank isList closes
    simpa using fills

theorem Opens.toMember (blank : AllBlank blanks) (blank' : AllBlank blanks')
    (isKey : IsLooseString key) (blank'' : AllBlank after) :
    Opens stack (blanks ++ objectStart :: (blanks' ++ (key ++ after ++ [colon])))
      (some (.object :: stack)) := by
  intro s fills
  obtain @⟨behind, t, _, solid, isValue, closes⟩ := fills
  cases closes with
  | @object members _ row c isRow keys values closes =>
    let member : Member := ⟨key, t, after, behind, blank'', solid⟩
    have isObject := @IsValue.object (member :: members) _
      ⟨_, .piece (.first blank') isRow, rfl⟩ (List.forall_mem_cons.2 ⟨isKey, keys⟩)
      (List.forall_mem_cons.2 ⟨isValue, values⟩)
    have fills := Fills.value blank isObject closes
    simpa [Member.text, member] using fills

end

namespace Reader

variable {bytes : Bytes} {u : Unit}

theorem keyEnd_eq_ok :
    keyEnd bytes = .ok (u, rest) ↔ ∃ blanks, AllBlank blanks ∧ bytes = blanks ++ colon :: rest := by
  rw [keyEnd, next?_bind_eq_ok (fun _ => throw_ne_ok)]
  constructor
  · rintro ⟨blanks, c, t, blank, -, rfl, h⟩
    split at h
    · contradiction
    · cases ‹some c = some colon›
      cases h
      exact ⟨blanks, blank, rfl⟩
    · exact absurd h throw_ne_ok
  · rintro ⟨blanks, blank, rfl⟩
    exact ⟨blanks, colon, rest, blank, rfl, rfl, rfl⟩

theorem skipKey_eq_ok :
    skipKey bytes = .ok (u, rest) ↔
      ∃ blanks key before, AllBlank blanks ∧ IsLooseString key ∧ AllBlank before ∧
        bytes = blanks ++ (key ++ before ++ colon :: rest) := by
  rw [skipKey, next?_bind_eq_ok (fun _ => throw_ne_ok)]
  constructor
  · rintro ⟨blanks, c, t, blank, -, rfl, h⟩
    split at h
    · contradiction
    · cases ‹some c = some quotationMark›
      rw [StateT.run, drop_bind, List.tail_cons, bind_eq_ok] at h
      obtain ⟨_, _, key, h⟩ := h
      obtain ⟨inside, isLoose, rfl⟩ := skipString_eq_ok.1 key
      obtain ⟨before, blank', rfl⟩ := keyEnd_eq_ok.1 h
      exact ⟨blanks, inQuotes inside, before, blank, ⟨inside, isLoose, rfl⟩, blank',
        by simp [inQuotes]⟩
    · exact absurd h throw_ne_ok
  · rintro ⟨blanks, _, before, blank, ⟨inside, isLoose, rfl⟩, blank', rfl⟩
    refine ⟨blanks, quotationMark, inside ++ quotationMark :: (before ++ colon :: rest), blank, rfl,
      by simp [inQuotes], ?_⟩
    rw [StateT.run]
    exact bind_eq_ok.2 ⟨(), _, rfl, bind_eq_ok.2 ⟨(), _, skipString_eq_ok.2 ⟨inside, isLoose, rfl⟩,
      keyEnd_eq_ok.2 ⟨before, blank', rfl⟩⟩⟩

theorem moves_of_afterValue {stack : List Container} {left : Option (List Container)}
    (h : afterValue stack bytes = .ok (left, rest)) :
    ∃ taken, Moves stack taken left ∧ bytes = taken ++ rest := by
  induction stack generalizing bytes with
  | nil =>
    obtain ⟨rfl, rfl⟩ := pure_eq_ok.1 h
    exact ⟨[], Closes.nil, rfl⟩
  | cons container outer ih =>
    cases container with
    | list =>
      rw [afterValue, next?_bind_eq_ok (fun _ => throw_ne_ok)] at h
      obtain ⟨before, c, s, blank, -, rfl, h⟩ := h
      split at h
      · contradiction
      · cases ‹some c = some comma›
        cases h
        exact ⟨before ++ [comma], Moves.toElement blank, by simp⟩
      · cases ‹some c = some listEnd›
        obtain ⟨taken, moves, rfl⟩ := ih h
        exact ⟨_, Moves.leaveList blank moves, by simp⟩
      · exact absurd h throw_ne_ok
    | object =>
      rw [afterValue, next?_bind_eq_ok (fun _ => throw_ne_ok)] at h
      obtain ⟨before, c, s, blank, -, rfl, h⟩ := h
      split at h
      · contradiction
      · cases ‹some c = some comma›
        rw [StateT.run, drop_bind, List.tail_cons, bind_eq_ok] at h
        obtain ⟨_, _, key, h⟩ := h
        obtain ⟨blanks, key, after, blank', isKey, blank'', rfl⟩ := skipKey_eq_ok.1 key
        cases h
        exact ⟨_, Moves.toMember blank blank' isKey blank'', by simp⟩
      · cases ‹some c = some objectEnd›
        obtain ⟨taken, moves, rfl⟩ := ih h
        exact ⟨_, Moves.leaveObject blank moves, by simp⟩
      · exact absurd h throw_ne_ok

section

variable {stack : List Container} {left : Option (List Container)} {blanks : Bytes}

theorem opens_of_skipList (blank : AllBlank blanks)
    (h : skipList stack bytes = .ok (left, rest)) :
    ∃ taken, Opens stack taken left ∧ taken ≠ [] ∧
      blanks ++ listStart :: bytes = taken ++ rest := by
  rw [skipList, next?_bind_eq_ok (fun _ => throw_ne_ok)] at h
  obtain ⟨inside, c, s, blank', -, rfl, h⟩ := h
  split at h
  · contradiction
  · cases ‹some c = some listEnd›
    obtain ⟨taken, moves, rfl⟩ := moves_of_afterValue h
    have isList := IsValue.list ⟨_, .close blank', rfl⟩ nofun
    exact ⟨_, Opens.value blank isList moves, by simp, by simp⟩
  · cases h
    exact ⟨_, Opens.toElement blank blank', by simp, by simp⟩

theorem opens_of_skipObject (blank : AllBlank blanks)
    (h : skipObject stack bytes = .ok (left, rest)) :
    ∃ taken, Opens stack taken left ∧ taken ≠ [] ∧
      blanks ++ objectStart :: bytes = taken ++ rest := by
  rw [skipObject, next?_bind_eq_ok (fun _ => throw_ne_ok)] at h
  obtain ⟨inside, c, s, blank', -, rfl, h⟩ := h
  split at h
  · contradiction
  · cases ‹some c = some objectEnd›
    obtain ⟨taken, moves, rfl⟩ := moves_of_afterValue h
    have isObject := @IsValue.object [] _ ⟨_, .close blank', rfl⟩ nofun nofun
    exact ⟨_, Opens.value blank isObject moves, by simp, by simp⟩
  · rw [StateT.run, bind_eq_ok] at h
    obtain ⟨_, _, key, h⟩ := h
    obtain ⟨before, key, after, blank'', isKey, blank''', same⟩ := skipKey_eq_ok.1 key
    cases h
    have lead := allBlank_append.2 ⟨blank', blank''⟩
    exact ⟨_, Opens.toMember blank lead isKey blank''', by simp, by simp [same]⟩

theorem opens_of_whole {t : Bytes} (blank : AllBlank blanks) (isValue : IsValue t)
    (h : afterValue stack bytes = .ok (left, rest)) :
    ∃ taken, Opens stack taken left ∧ taken ≠ [] ∧
      blanks ++ (t ++ bytes) = taken ++ rest := by
  obtain ⟨taken, moves, rfl⟩ := moves_of_afterValue h
  obtain ⟨b, s, rfl, -⟩ := isValue.cons
  exact ⟨_, Opens.value blank isValue moves, by simp, by simp⟩

theorem opens_of_word {c : UInt8} {w : Bytes} (blank : AllBlank blanks) (isValue : IsValue (c :: w))
    (h : (word w >>= fun _ => afterValue stack) bytes = .ok (left, rest)) :
    ∃ taken, Opens stack taken left ∧ taken ≠ [] ∧ blanks ++ c :: bytes = taken ++ rest := by
  obtain ⟨_, _, passed, further⟩ := bind_eq_ok.1 h
  rw [word_eq_ok.1 passed]
  exact opens_of_whole blank isValue further

theorem opens_of_skipOne (h : skipOne stack bytes = .ok (left, rest)) :
    ∃ taken, Opens stack taken left ∧ taken ≠ [] ∧ bytes = taken ++ rest := by
  rw [skipOne, next?_bind_eq_ok (fun _ => throw_ne_ok)] at h
  obtain ⟨blanks, c, s, blank, -, rfl, h⟩ := h
  split at h
  · contradiction
  · cases ‹some c = some letterN›
    exact opens_of_word blank .nullWord h
  · cases ‹some c = some letterT›
    exact opens_of_word blank .trueWord h
  · cases ‹some c = some letterF›
    exact opens_of_word blank .falseWord h
  · cases ‹some c = some quotationMark›
    rw [StateT.run, drop_bind, bind_eq_ok] at h
    obtain ⟨_, _, string, h⟩ := h
    obtain ⟨inside, isLoose, same⟩ := skipString_eq_ok.1 string
    cases same
    obtain ⟨taken, opens, some, same⟩ :=
      opens_of_whole blank (.string ⟨inside, isLoose, rfl⟩) h
    exact ⟨taken, opens, some, by simpa [inQuotes] using same⟩
  · cases ‹some c = some listStart›
    exact opens_of_skipList blank h
  · cases ‹some c = some objectStart›
    exact opens_of_skipObject blank h
  · cases ‹some c = some _›
    obtain ⟨-, h⟩ := ite_else_throw_eq_ok.1 h
    obtain ⟨_, _, number, h⟩ := bind_eq_ok.1 h
    obtain ⟨t, isNumber, same⟩ := isNumber_of_skipNumber number
    rw [same]
    exact opens_of_whole blank (.number isNumber) h

end

theorem skipStep_progresses : Progresses skipStep := by
  intro stack bytes next mid h
  obtain ⟨left, _, one, last⟩ := bind_eq_ok.1 h
  obtain ⟨-, rfl⟩ := pure_eq_ok.1 last
  obtain ⟨taken, -, some, rfl⟩ := opens_of_skipOne one
  have long := List.length_pos_iff.2 some
  rw [List.length_append]
  omega

/-- What the reader passes over is a value, up to the end of every container around it. -/
theorem fills_of_runs {stack : List Container} (run : Runs skipStep stack bytes u rest) :
    ∃ s, Fills stack s ∧ bytes = s ++ rest := by
  induction run with
  | done last =>
    obtain ⟨left, _, h, last⟩ := bind_eq_ok.1 last
    obtain ⟨taken, opens, -, rfl⟩ := opens_of_skipOne h
    cases left with
    | none =>
      obtain ⟨-, rfl⟩ := pure_eq_ok.1 last
      exact ⟨taken, opens, rfl⟩
    | some next => cases (pure_eq_ok.1 last).1
  | more first further ih =>
    obtain ⟨left, _, h, last⟩ := bind_eq_ok.1 first
    obtain ⟨taken, opens, -, rfl⟩ := opens_of_skipOne h
    obtain ⟨s, fills, rfl⟩ := ih
    cases left with
    | none => cases (pure_eq_ok.1 last).1
    | some next =>
      obtain ⟨same, rfl⟩ := pure_eq_ok.1 last
      cases same
      exact ⟨taken ++ s, opens fills, by simp⟩

theorem isValue_of_skipValue (h : skipValue bytes = .ok (u, rest)) :
    ∃ blanks t, AllBlank blanks ∧ IsValue t ∧ bytes = blanks ++ (t ++ rest) := by
  obtain ⟨s, fills, rfl⟩ := fills_of_runs ((iterate_eq_ok skipStep_progresses).1 h)
  obtain ⟨blank, isValue, closes⟩ := fills
  cases closes with
  | nil => exact ⟨_, _, blank, isValue, by simp⟩

/-! ## Every value is passed over -/

def Goes (left : Option (List Container)) (mid rest : Bytes) : Prop :=
  match left with
  | none => mid = rest
  | some stack => Runs skipStep stack mid () rest

def Continues (stack : List Container) (mid rest : Bytes) : Prop :=
  ∃ left mid', afterValue stack mid = .ok (left, mid') ∧ Goes left mid' rest

/-- Wherever the reader gets to the end behind a value, it does so from in front of it. -/
def Skippable (t : Bytes) : Prop :=
  ∀ {stack : List Container} {blanks mid rest : Bytes}, AllBlank blanks → Ends mid →
    Continues stack mid rest → Runs skipStep stack (blanks ++ (t ++ mid)) () rest

section

variable {stack outer : List Container} {blanks mid : Bytes}

theorem runs_of_skipOne {left : Option (List Container)} (h : skipOne stack bytes = .ok (left, mid))
    (goes : Goes left mid rest) : Runs skipStep stack bytes () rest := by
  have step : skipStep stack bytes = .ok (left.elim (.inr ()) .inl, mid) :=
    bind_eq_ok.2 ⟨left, mid, h, rfl⟩
  cases left with
  | none =>
    cases goes
    exact .done step
  | some next => exact .more step goes

theorem skippable_of_eq (whole : ∀ {stack blanks mid}, AllBlank blanks → Ends mid →
    skipOne stack (blanks ++ (t ++ mid)) = afterValue stack mid) : Skippable t := by
  rintro stack blanks mid rest blank ends ⟨left, mid', h, goes⟩
  exact runs_of_skipOne ((whole blank ends).trans h) goes

theorem Continues.leaveList (blank : AllBlank blanks) (continues : Continues outer mid rest) :
    Continues (.list :: outer) (blanks ++ listEnd :: mid) rest := by
  obtain ⟨left, mid', h, goes⟩ := continues
  refine ⟨left, mid', ?_, goes⟩
  rw [afterValue, next?_bind_append blank rfl]
  exact h

theorem Continues.leaveObject (blank : AllBlank blanks) (continues : Continues outer mid rest) :
    Continues (.object :: outer) (blanks ++ objectEnd :: mid) rest := by
  obtain ⟨left, mid', h, goes⟩ := continues
  refine ⟨left, mid', ?_, goes⟩
  rw [afterValue, next?_bind_append blank rfl]
  exact h

theorem continues_list {elements : List Bytes} (isRow : IsRow listEnd false elements t)
    (skippable : ∀ e ∈ elements, Skippable e) (continues : Continues outer mid rest) :
    Continues (.list :: outer) (t ++ mid) rest := by
  induction elements generalizing t with
  | nil =>
    cases isRow with
    | close blank =>
      rw [List.append_assoc]
      exact continues.leaveList blank
  | cons e elements ih =>
    rw [List.forall_mem_cons] at skippable
    cases isRow with
    | @piece _ lead _ t _ isLead isRow =>
      cases isLead with
      | @comma before after blank blank' =>
        -- The comma leads back to the loop, which skips this element and goes on with the others.
        have run := skippable.1 blank' (isRow.ends ends_listEnd mid) (ih isRow skippable.2)
        refine ⟨some (.list :: outer), after ++ (e ++ (t ++ mid)), ?_, run⟩
        simp only [List.append_assoc, List.cons_append]
        rw [afterValue, next?_bind_append blank rfl]
        rfl

theorem continues_object {members : List Member}
    (isRow : IsRow objectEnd false (members.map Member.text) t)
    (keys : ∀ m ∈ members, IsLooseString m.key) (skippable : ∀ m ∈ members, Skippable m.value)
    (continues : Continues outer mid rest) : Continues (.object :: outer) (t ++ mid) rest := by
  induction members generalizing t with
  | nil =>
    cases isRow with
    | close blank =>
      rw [List.append_assoc]
      exact continues.leaveObject blank
  | cons m members ih =>
    rw [List.forall_mem_cons] at skippable keys
    cases isRow with
    | @piece _ lead _ t _ isLead isRow =>
      cases isLead with
      | @comma before after blank blank' =>
        have run := skippable.1 m.blank' (isRow.ends ends_objectEnd mid)
          (ih isRow keys.2 skippable.2)
        refine ⟨some (.object :: outer), m.after ++ (m.value ++ (t ++ mid)), ?_, run⟩
        simp only [List.append_assoc, List.cons_append, Member.text]
        rw [afterValue, next?_bind_append blank rfl]
        refine bind_eq_ok.2 ⟨(), _, rfl, bind_eq_ok.2 ⟨(), _, skipKey_eq_ok.2 ?_, rfl⟩⟩
        exact ⟨after, m.key, m.before, blank', keys.1, m.blank, by simp⟩

theorem skippable_of_isNumber (isNumber : IsNumber t) : Skippable t := by
  refine skippable_of_eq fun {stack blanks mid} blank ends => ?_
  have skipped := skipNumber_of_isNumber isNumber ends.stops
  obtain ⟨c, s, rfl, first⟩ := isNumber.cons
  have solid : isBlank c = false := first.elim (fun h => h ▸ rfl) isBlank_of_isDigit
  rw [skipOne, List.cons_append, next?_bind_append blank solid]
  split
  case h_8 =>
    cases ‹some c = some _›
    rw [if_pos first]
    exact bind_of_ok skipped
  all_goals
    rename_i same
    cases same
  all_goals exact absurd first (by decide)

theorem skippable_of_skips {c : UInt8} {s : Bytes} {skip : Reader Unit}
    (starts : ∀ {stack blanks t}, AllBlank blanks →
      skipOne stack (blanks ++ c :: t) = (skip >>= fun _ => afterValue stack) t)
    (skips : ∀ mid, skip (s ++ mid) = .ok ((), mid)) : Skippable (c :: s) :=
  skippable_of_eq fun blank _ => (starts blank).trans (bind_of_ok (skips _))

theorem skippable_of_isLooseString (isString : IsLooseString t) : Skippable t := by
  obtain ⟨inside, isLoose, rfl⟩ := isString
  refine skippable_of_skips (fun blank => next?_bind_append blank rfl) fun mid => ?_
  exact skipString_eq_ok.2 ⟨inside, isLoose, by simp⟩

theorem skipOne_listStart (blank : AllBlank blanks) :
    skipOne stack (blanks ++ listStart :: t) = skipList stack t :=
  next?_bind_append blank rfl

theorem skipOne_objectStart (blank : AllBlank blanks) :
    skipOne stack (blanks ++ objectStart :: t) = skipObject stack t :=
  next?_bind_append blank rfl

theorem skippable_of_isList {elements : List Bytes} (isList : IsList elements t)
    (values : ∀ e ∈ elements, IsValue e) (skippable : ∀ e ∈ elements, Skippable e) :
    Skippable t := by
  intro stack blanks mid rest blank ends continues
  obtain ⟨row, isRow, rfl⟩ := isList
  cases isRow with
  | @close _ inside blank' =>
    obtain ⟨left, mid', h, goes⟩ := continues
    refine runs_of_skipOne ?_ goes
    rw [List.cons_append, skipOne_listStart blank, skipList, List.append_assoc]
    exact (next?_bind_append blank' rfl).trans h
  | @piece _ inside e t elements isLead isRow =>
    cases isLead with
    | first blank' =>
      rw [List.forall_mem_cons] at skippable values
      obtain ⟨c, s, rfl, solid, -, open', -⟩ := values.1.cons
      have run := skippable.1 allBlank_nil (isRow.ends ends_listEnd mid)
        (continues_list isRow skippable.2 continues)
      have goes : Goes (some (.list :: stack)) _ rest := run
      refine runs_of_skipOne ?_ goes
      rw [List.cons_append, skipOne_listStart blank, skipList]
      simp only [List.append_assoc, List.cons_append]
      rw [next?_bind_append blank' solid]
      split
      · contradiction
      · cases ‹some c = some listEnd›
        exact absurd rfl open'
      · rfl

theorem skippable_of_isObject {members : List Member} (isObject : IsObject members t)
    (keys : ∀ m ∈ members, IsLooseString m.key) (skippable : ∀ m ∈ members, Skippable m.value) :
    Skippable t := by
  intro stack blanks mid rest blank ends continues
  obtain ⟨row, isRow, rfl⟩ := isObject
  cases members with
  | nil =>
    cases isRow with
    | @close _ inside blank' =>
      obtain ⟨left, mid', h, goes⟩ := continues
      refine runs_of_skipOne ?_ goes
      rw [List.cons_append, skipOne_objectStart blank, skipObject, List.append_assoc]
      exact (next?_bind_append blank' rfl).trans h
  | cons m members =>
    rw [List.forall_mem_cons] at skippable keys
    cases isRow with
    | @piece _ inside _ t _ isLead isRow =>
      cases isLead with
      | first blank' =>
        have run := skippable.1 m.blank' (isRow.ends ends_objectEnd mid)
          (continues_object isRow keys.2 skippable.2 continues)
        have goes : Goes (some (.object :: stack)) _ rest := run
        refine runs_of_skipOne ?_ goes
        have key := keys.1
        obtain ⟨quoted, -, isQuoted⟩ := key
        rw [List.cons_append, skipOne_objectStart blank, skipObject]
        simp only [List.append_assoc, List.cons_append, Member.text, isQuoted, inQuotes]
        rw [next?_bind_append blank' rfl]
        refine bind_eq_ok.2 ⟨(), _, skipKey_eq_ok.2 ?_, rfl⟩
        exact ⟨[], m.key, m.before, allBlank_nil, keys.1, m.blank, by simp [isQuoted, inQuotes]⟩

theorem skippable_of_isValue (isValue : IsValue t) : Skippable t := by
  induction isValue with
  | nullWord =>
    exact skippable_of_skips (fun blank => next?_bind_append blank rfl) fun _ => word_eq_ok.2 rfl
  | trueWord =>
    exact skippable_of_skips (fun blank => next?_bind_append blank rfl) fun _ => word_eq_ok.2 rfl
  | falseWord =>
    exact skippable_of_skips (fun blank => next?_bind_append blank rfl) fun _ => word_eq_ok.2 rfl
  | number isNumber => exact skippable_of_isNumber isNumber
  | string isString => exact skippable_of_isLooseString isString
  | list isList values ih => exact skippable_of_isList isList values ih
  | object isObject keys _ ih => exact skippable_of_isObject isObject keys ih

theorem skipValue_of_isValue (isValue : IsValue t) (blank : AllBlank blanks) (ends : Ends rest) :
    skipValue (blanks ++ (t ++ rest)) = .ok ((), rest) :=
  (iterate_eq_ok skipStep_progresses).2
    (skippable_of_isValue isValue blank ends ⟨none, rest, rfl, rfl⟩)

end

end Reader

end ProjectClient.Json

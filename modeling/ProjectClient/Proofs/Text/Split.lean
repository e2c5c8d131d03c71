import Mathlib.Data.List.DropRight
import ProjectClient.Text.Blank
import ProjectClient.Text.Columns
import ProjectClient.Text.Split

/-! Splitting and trimming: what the pieces are made of, what is taken away at the ends, and when
nothing is. Lines are read back from the text that they make. -/
namespace ProjectClient.Text

variable {α : Type} {p : α → Bool} {l : List α}

/-! ## Pieces -/

theorem splitOn_eq_splitOnP (l : List α) : splitOn p l = l.splitOnP p := by
  induction l with
  | nil => rfl
  | cons a l ih =>
    rw [splitOn, ih, List.splitOnP_cons_eq_if_modifyHead]
    split
    · rfl
    · cases pieces : l.splitOnP p with
      | nil => exact absurd pieces (List.splitOnP_ne_nil p l)
      | cons piece pieces => rfl

theorem splitOn_ne_nil : splitOn p l ≠ [] := by
  rw [splitOn_eq_splitOnP]
  exact List.splitOnP_ne_nil p l

theorem forall_mem_of_mem_splitOn {piece : List α} (h : piece ∈ splitOn p l) :
    ∀ a ∈ piece, a ∈ l ∧ p a = false := by
  induction l generalizing piece with
  | nil =>
    cases List.mem_singleton.1 h
    nofun
  | cons a l ih =>
    rw [splitOn] at h
    split at h
    · rcases List.mem_cons.1 h with rfl | h
      · nofun
      · exact fun b hb => ⟨List.mem_cons_of_mem _ (ih h b hb).1, (ih h b hb).2⟩
    · rename_i kept
      split at h
      · rename_i none
        exact absurd none splitOn_ne_nil
      · rename_i first pieces split
        rw [split] at ih
        rcases List.mem_cons.1 h with rfl | h
        · refine List.forall_mem_cons.2 ⟨⟨List.mem_cons_self, by simpa using kept⟩, fun b hb => ?_⟩
          have old := ih List.mem_cons_self b hb
          exact ⟨List.mem_cons_of_mem _ old.1, old.2⟩
        · have old := ih (List.mem_cons_of_mem _ h)
          exact fun b hb => ⟨List.mem_cons_of_mem _ (old b hb).1, (old b hb).2⟩

theorem splitOn_append_cons {before : List α} {a : α} (inside : ∀ b ∈ before, p b = false)
    (separates : p a = true) (rest : List α) :
    splitOn p (before ++ a :: rest) = before :: splitOn p rest := by
  rw [splitOn_eq_splitOnP, splitOn_eq_splitOnP,
    List.splitOnP_append_cons_of_forall_mem inside a separates]

/-! ## Lines -/

def IsUnbroken (text : String) : Prop :=
  '\n' ∉ text.toList

instance (text : String) : Decidable (IsUnbroken text) :=
  inferInstanceAs (Decidable ('\n' ∉ text.toList))

@[simp] theorem isUnbroken_append {first second : String} :
    IsUnbroken (first ++ second) ↔ IsUnbroken first ∧ IsUnbroken second := by
  simp [IsUnbroken]

theorem ofLines_cons (line : String) (lines : List String) :
    (ofLines (line :: lines)).toList = line.toList ++ '\n' :: (ofLines lines).toList := by
  simp [ofLines, String.join_cons]

theorem pieces_ofLines {lines : List String} (unbroken : ∀ line ∈ lines, IsUnbroken line) :
    pieces '\n' (ofLines lines) = lines ++ [""] := by
  induction lines with
  | nil => rfl
  | cons line lines ih =>
    rw [List.forall_mem_cons] at unbroken
    have inside : ∀ c ∈ line.toList, (c == '\n') = false := fun c among =>
      beq_false_of_ne fun same => unbroken.1 (same ▸ among)
    have rest := ih unbroken.2
    rw [pieces] at rest ⊢
    rw [ofLines_cons, splitOn_append_cons inside (beq_self_eq_true _), List.map_cons, rest,
      String.ofList_toList, List.cons_append]

/-! ## Ends -/

theorem takeWhile_append_stop {rest : List α} (inside : ∀ a ∈ l, p a = true)
    (stops : ∀ a ∈ rest.head?, p a = false) : (l ++ rest).takeWhile p = l := by
  have none : rest.takeWhile p = [] := by
    cases rest with
    | nil => rfl
    | cons a rest => simp [stops a rfl]
  rw [List.takeWhile_append_of_pos inside, none, List.append_nil]

theorem takeWhile_ne_append {mark : Char} {before : List Char} (none : mark ∉ before)
    (rest : List Char) (stops : ∀ c ∈ rest.head?, c = mark) :
    (before ++ rest).takeWhile (· != mark) = before := by
  refine takeWhile_append_stop (fun c h => ?_) (fun c h => by simp [stops c h])
  have other : c ≠ mark := fun same => none (same ▸ h)
  simpa using other

theorem stripEnds_eq_rdropWhile (l : List α) : stripEnds p l = (l.dropWhile p).rdropWhile p := rfl

theorem stripEnds_eq_self (front : ∀ a ∈ l.head?, p a = false)
    (back : ∀ a ∈ l.getLast?, p a = false) : stripEnds p l = l := by
  have first : l.dropWhile p = l := by
    cases l with
    | nil => rfl
    | cons a l => exact List.dropWhile_cons_of_neg (by simp [front a rfl])
  rw [stripEnds_eq_rdropWhile, first, List.rdropWhile_eq_self_iff]
  intro some
  simp [back _ (List.getLast?_eq_some_getLast some)]

theorem exists_stripEnds (l : List α) : ∃ front back, l = front ++ stripEnds p l ++ back ∧
    (∀ a ∈ front, p a = true) ∧ (∀ a ∈ back, p a = true) ∧
    (∀ a ∈ (stripEnds p l).head?, p a = false) ∧
    ∀ a ∈ (stripEnds p l).getLast?, p a = false := by
  refine ⟨l.takeWhile p, (l.dropWhile p).rtakeWhile p, ?_, fun a => List.mem_takeWhile_imp,
    fun a => List.mem_rtakeWhile_imp, fun a first => ?_, fun a last => ?_⟩
  · rw [stripEnds_eq_rdropWhile, List.append_assoc, List.rdropWhile_append_rtakeWhile,
      List.takeWhile_append_dropWhile]
  · obtain ⟨rest, same⟩ : stripEnds p l <+: l.dropWhile p := List.rdropWhile_prefix p _
    have front := List.head?_dropWhile_not p l
    rw [← same, List.head?_append, Option.mem_def.1 first] at front
    exact front
  · have some : stripEnds p l ≠ [] := List.ne_nil_of_mem (List.mem_of_mem_getLast? last)
    rw [← List.getLast_of_mem_getLast? last]
    exact Bool.eq_false_iff.2 (List.rdropWhile_last_not p (l.dropWhile p) some)

theorem stripEnds_stripEnds : stripEnds p (stripEnds p l) = stripEnds p l := by
  obtain ⟨_, _, -, -, -, first, last⟩ := exists_stripEnds (p := p) l
  exact stripEnds_eq_self first last

theorem stripEnds_append {front back : List α} (frontAll : ∀ a ∈ front, p a = true)
    (backAll : ∀ a ∈ back, p a = true) (first : ∀ a ∈ l.head?, p a = false)
    (last : ∀ a ∈ l.getLast?, p a = false) : stripEnds p (front ++ l ++ back) = l := by
  have reversed : ∀ a ∈ back.reverse, p a = true := fun a among =>
    backAll a (List.mem_reverse.1 among)
  have own : stripEnds p l = l := stripEnds_eq_self first last
  cases l with
  | nil =>
    have all : (front ++ [] ++ back).dropWhile p = [] := by
      rw [List.append_nil, List.dropWhile_append_of_pos frontAll, ← List.append_nil back,
        List.dropWhile_append_of_pos backAll]
      rfl
    rw [stripEnds, all]
    rfl
  | cons a l =>
    have stop : ¬ p a := by simp [first a rfl]
    rw [stripEnds, List.append_assoc, List.dropWhile_append_of_pos frontAll, List.cons_append,
      List.dropWhile_cons_of_neg stop, ← List.cons_append, List.reverse_append,
      List.dropWhile_append_of_pos reversed]
    rw [stripEnds, List.dropWhile_cons_of_neg stop] at own
    exact own

@[simp] theorem trim_trim (text : String) : trim (trim text) = trim text := by
  rw [trim, trim, String.toList_ofList, stripEnds_stripEnds]

/-- What is trimmed off is blank, and what is left is not at its ends. -/
theorem trim_eq_iff {text other : String} : trim text = other ↔ ∃ front back,
    text.toList = front ++ other.toList ++ back ∧ (∀ c ∈ front, isBlank c) ∧
      (∀ c ∈ back, isBlank c) ∧ (∀ c ∈ other.toList.head?, ¬ isBlank c) ∧
        ∀ c ∈ other.toList.getLast?, ¬ isBlank c := by
  simp only [Bool.not_eq_true]
  constructor
  · rintro rfl
    rw [trim, String.toList_ofList]
    exact exists_stripEnds text.toList
  · rintro ⟨front, back, same, frontAll, backAll, first, last⟩
    rw [trim, same, stripEnds_append frontAll backAll first last, String.ofList_toList]

theorem isBlank_eq_false {c : Char} (low : 0x20 < c.toNat) (high : c.toNat < 0x7f) :
    isBlank c = false := by
  have value : c.toNat = c.val.toNat := rfl
  rw [value] at low high
  simp [isBlank, UInt32.le_iff_toNat_le, ← UInt32.toNat_inj]
  omega

end ProjectClient.Text

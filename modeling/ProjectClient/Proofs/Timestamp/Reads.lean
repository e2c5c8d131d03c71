import Mathlib.Data.List.TakeWhile
import ProjectClient.Proofs.Text.Split
import ProjectClient.Timestamp.Grammar

/-! What each of the basic readers takes from the front of a text, and when it does. -/
namespace ProjectClient.Timestamp

open Text

def IsDigits (digits : List Char) : Prop :=
  digits ≠ [] ∧ ∀ c ∈ digits, c.isDigit

def AllBlank (text : List Char) : Prop :=
  ∀ c ∈ text, isBlank c

inductive IsFraction : List Char → Prop
  | none : IsFraction []
  | some {digits : List Char} (isDigits : IsDigits digits) : IsFraction ('.' :: digits)

def NoDigit (text : List Char) : Prop :=
  ∀ c ∈ text.head?, ¬ c.isDigit

def NoBlank (text : List Char) : Prop :=
  ∀ c ∈ text.head?, ¬ isBlank c

namespace Reader

variable {α β : Type} {x : Reader α} {f : α → Reader β} {text rest : List Char}

theorem bind_eq_some {b : β} : (x >>= f) text = some (b, rest) ↔
    ∃ a between, x text = some (a, between) ∧ f a between = some (b, rest) := by
  change (x text).bind (fun (a, between) => f a between) = _ ↔ _
  simp [Option.bind_eq_some_iff]

theorem bind_of_some {a : α} {between : List Char} (h : x text = some (a, between)) :
    (x >>= f) text = f a between := by
  change (x text).bind (fun (a, between) => f a between) = _
  rw [h]
  rfl

theorem pure_eq_some {a b : α} :
    (pure a : Reader α) text = some (b, rest) ↔ a = b ∧ text = rest := by
  change some (a, text) = _ ↔ _
  simp

theorem readAll?_eq_some {a : α} : x.readAll? text = some a ↔ x text = some (a, []) := by
  unfold readAll?
  split
  · simp_all
  · simp_all

theorem one_eq_some {p : Char → Bool} {c : Char} :
    one p text = some (c, rest) ↔ text = c :: rest ∧ p c := by
  cases text with
  | nil => simp [one]
  | cons first text =>
    by_cases holds : p first
    · simp only [one, holds]
      grind
    · simp only [one, holds]
      grind

theorem literal_eq_some {c : Char} {u : Unit} :
    literal c text = some (u, rest) ↔ text = c :: rest := by
  change (one (· == c) >>= fun _ => pure ()) text = _ ↔ _
  simp only [bind_eq_some, pure_eq_some, one_eq_some, beq_iff_eq]
  constructor
  · rintro ⟨_, between, ⟨rfl, rfl⟩, -, rfl⟩
    rfl
  · rintro rfl
    exact ⟨c, rest, ⟨rfl, rfl⟩, trivial, rfl⟩

theorem literal_cons (c : Char) (rest : List Char) : literal c (c :: rest) = some ((), rest) :=
  literal_eq_some.2 rfl

theorem blanks_eq_some {u : Unit} : blanks text = some (u, rest) ↔
    ∃ front, text = front ++ rest ∧ AllBlank front ∧ NoBlank rest := by
  unfold blanks
  simp only [Option.some.injEq, Prod.mk.injEq, true_and]
  constructor
  · rintro rfl
    refine ⟨_, List.takeWhile_append_dropWhile.symm, fun c => List.mem_takeWhile_imp, ?_⟩
    intro c first
    have stops := List.head?_dropWhile_not isBlank text
    rw [Option.mem_def.1 first] at stops
    simpa using stops
  · rintro ⟨front, rfl, allBlank, noBlank⟩
    rw [List.dropWhile_append_of_pos allBlank]
    cases rest with
    | nil => rfl
    | cons c rest => exact List.dropWhile_cons_of_neg (noBlank c rfl)

theorem takeWhile_take_eq {most : Nat} {digits : List Char} (split : text = digits ++ rest) :
    (text.take most).takeWhile Char.isDigit = digits ↔ (∀ c ∈ digits, c.isDigit) ∧
      digits.length ≤ most ∧ (digits.length < most → NoDigit rest) := by
  have front (short : digits.length ≤ most) :
      text.take most = digits ++ rest.take (most - digits.length) := by
    rw [split, List.take_append, List.take_of_length_le short]
  constructor
  · intro taken
    have prefixed := (List.takeWhile_prefix Char.isDigit).trans (List.take_prefix most text)
    have short : digits.length ≤ most := by
      have bound := (List.takeWhile_prefix Char.isDigit (l := text.take most)).length_le
      rw [taken, List.length_take] at bound
      omega
    refine ⟨fun c among => List.mem_takeWhile_imp (taken ▸ among), short, fun more c first => ?_⟩
    have behind := List.takeWhile_append_dropWhile (p := Char.isDigit) (l := text.take most)
    rw [taken, front short, List.append_cancel_left_eq] at behind
    have stops := List.head?_dropWhile_not Char.isDigit (text.take most)
    have there : (rest.take (most - digits.length)).head? = some c := by
      rw [List.head?_take, if_neg (by omega)]
      exact first
    rw [front short, behind, there] at stops
    simpa using stops
  · rintro ⟨isDigit, short, stops⟩
    rw [front short]
    refine takeWhile_append_stop isDigit fun c first => ?_
    rw [List.head?_take] at first
    split at first
    · cases first
    · simpa using stops (by omega) c first

theorem number_eq_some {least most n : Nat} : number least most text = some (n, rest) ↔
    ∃ digits, text = digits ++ rest ∧ (∀ c ∈ digits, c.isDigit) ∧ decimal digits = n ∧
      least ≤ digits.length ∧ digits.length ≤ most ∧ (digits.length < most → NoDigit rest) := by
  unfold number
  dsimp only
  constructor
  · intro read
    split at read
    · rename_i enough
      cases read
      have prefixed := (List.takeWhile_prefix Char.isDigit).trans (List.take_prefix most text)
      have split := (List.prefix_iff_eq_append.1 prefixed).symm
      obtain ⟨isDigit, short, stops⟩ := (takeWhile_take_eq split).1 rfl
      exact ⟨_, split, isDigit, rfl, enough, short, stops⟩
    · cases read
  · rintro ⟨digits, split, isDigit, rfl, enough, short, stops⟩
    rw [(takeWhile_take_eq split).2 ⟨isDigit, short, stops⟩, if_pos enough, split,
      List.drop_left]

theorem anyNumber_eq_some {n : Nat} : anyNumber text = some (n, rest) ↔
    ∃ digits, text = digits ++ rest ∧ IsDigits digits ∧ decimal digits = n ∧ NoDigit rest := by
  unfold anyNumber
  rw [number_eq_some]
  constructor
  · rintro ⟨digits, rfl, isDigit, value, some, -, stops⟩
    refine ⟨digits, rfl, ⟨List.length_pos_iff.1 some, isDigit⟩, value, ?_⟩
    cases rest with
    | nil => nofun
    | cons c rest => exact stops (by simp)
  · rintro ⟨digits, rfl, ⟨some, isDigit⟩, value, stops⟩
    exact ⟨digits, rfl, isDigit, value, List.length_pos_iff.2 some, by simp, fun _ => stops⟩

theorem startsWith_bind_eq_some {c : Char} {f : Bool → Reader α} {a : α} :
    (startsWith c >>= f) text = some (a, rest) ↔
      f (text.head? == some c) text = some (a, rest) :=
  Iff.rfl

/-- The reader of a fraction, apart from the text that decides whether there is one. -/
theorem point_eq_some : (literal '.' >>= fun _ => anyNumber >>= fun _ => pure ()) text =
    some ((), rest) ↔ ∃ digits, text = '.' :: (digits ++ rest) ∧ IsDigits digits ∧
      NoDigit rest := by
  simp only [bind_eq_some, literal_eq_some, anyNumber_eq_some, pure_eq_some]
  constructor
  · rintro ⟨_, _, rfl, n, _, ⟨digits, rfl, isDigits, -, stops⟩, -, rfl⟩
    exact ⟨digits, rfl, isDigits, stops⟩
  · rintro ⟨digits, rfl, isDigits, stops⟩
    exact ⟨(), _, rfl, _, rest, ⟨digits, rfl, isDigits, rfl, stops⟩, trivial, rfl⟩

theorem isFraction_of_fraction (read : fraction text = some ((), rest)) :
    ∃ piece, text = piece ++ rest ∧ IsFraction piece := by
  rw [fraction, startsWith_bind_eq_some] at read
  split at read
  · obtain ⟨digits, rfl, isDigits, -⟩ := point_eq_some.1 read
    exact ⟨'.' :: digits, rfl, .some isDigits⟩
  · obtain ⟨-, rfl⟩ := pure_eq_some.1 read
    exact ⟨[], rfl, .none⟩

theorem fraction_of_isFraction {piece : List Char} (isFraction : IsFraction piece)
    (stops : NoDigit rest) (noPoint : rest.head? ≠ some '.') :
    fraction (piece ++ rest) = some ((), rest) := by
  rw [fraction, startsWith_bind_eq_some]
  cases isFraction with
  | none =>
    rw [List.nil_append, if_neg (by simpa using noPoint)]
    rfl
  | @some digits isDigits =>
    exact point_eq_some.2 ⟨digits, rfl, isDigits, stops⟩

end Reader

end ProjectClient.Timestamp

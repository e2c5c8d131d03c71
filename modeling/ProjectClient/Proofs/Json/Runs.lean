import ProjectClient.Proofs.Json.Grammar

/-! How readers are put together. A loop comes to an end by a run of its steps, so what it reads
follows by induction over the run. -/
namespace ProjectClient.Json

theorem allBlank_nil : AllBlank [] := by
  simp [AllBlank]

theorem allBlank_append {s t : Bytes} : AllBlank (s ++ t) ↔ AllBlank s ∧ AllBlank t := by
  simp [AllBlank, or_imp, forall_and]

theorem allBlank_takeWhile (t : Bytes) : AllBlank (t.takeWhile isBlank) :=
  List.all_eq_true.1 List.all_takeWhile

def Ends (rest : Bytes) : Prop :=
  ∀ b ∈ rest.head?, isBlank b ∨ b = comma ∨ b = listEnd ∨ b = objectEnd

namespace Reader

variable {σ α β : Type} {bytes rest : Bytes}

theorem bind_eq_ok {reader : Reader α} {f : α → Reader β} {b : β} :
    (reader >>= f) bytes = .ok (b, rest) ↔
      ∃ a mid, reader bytes = .ok (a, mid) ∧ f a mid = .ok (b, rest) := by
  simp only [bind, StateT.bind, Except.bind]
  cases reader bytes with
  | error e => simp
  | ok result =>
    obtain ⟨a, mid⟩ := result
    simp [and_assoc]

theorem bind_of_ok {reader : Reader α} {f : α → Reader β} {a : α}
    (h : reader bytes = .ok (a, rest)) : (reader >>= f) bytes = f a rest := by
  simp only [bind, StateT.bind, Except.bind, h]

@[simp] theorem pure_eq_ok {a b : α} :
    (pure a : Reader α) bytes = .ok (b, rest) ↔ a = b ∧ bytes = rest := by
  change Except.ok (a, bytes) = Except.ok (b, rest) ↔ _
  rw [Except.ok.injEq, Prod.mk.injEq]

@[simp] theorem throw_ne_ok {e : Error} {b : α} :
    (throw e : Reader α) bytes ≠ .ok (b, rest) := by
  simp [throw, throwThe, MonadExceptOf.throw, StateT.lift, bind, Except.bind]

@[simp] theorem ite_throw_eq_ok {c : Prop} [Decidable c] {e : Error} {reader : Reader α} {a : α} :
    (if c then throw e else reader) bytes = .ok (a, rest) ↔
      ¬ c ∧ reader bytes = .ok (a, rest) := by
  split <;> simp_all

@[simp] theorem ite_else_throw_eq_ok {c : Prop} [Decidable c] {e : Error} {reader : Reader α}
    {a : α} : (if c then reader else throw e) bytes = .ok (a, rest) ↔
      c ∧ reader bytes = .ok (a, rest) := by
  split <;> simp_all

theorem ite_pure_eq_ok {c : Prop} [Decidable c] {reader : Reader Unit} {u : Unit} :
    (if c then reader else pure ()) bytes = .ok (u, rest) ↔
      c ∧ reader bytes = .ok (u, rest) ∨ ¬ c ∧ bytes = rest := by
  split <;> simp_all

theorem drop_eq_ok {u : Unit} : drop bytes = .ok (u, rest) ↔ bytes.tail = rest := by
  simp [drop]

-- What comes after a look at a byte is put below `StateT.run`, since a match splits only there.
theorem peek?_bind (f : Option UInt8 → Reader β) :
    (peek? >>= f) bytes = StateT.run (f bytes.head?) bytes := rfl

theorem take?_bind (f : Option UInt8 → Reader β) :
    (take? >>= f) bytes = StateT.run (f bytes.head?) bytes.tail := rfl

theorem drop_bind (f : Unit → Reader β) : (drop >>= f) bytes = f () bytes.tail := rfl

theorem next?_bind (f : Option UInt8 → Reader β) :
    (next? >>= f) bytes =
      StateT.run (f (bytes.dropWhile isBlank).head?) (bytes.dropWhile isBlank) := rfl

theorem next?_bind_append {f : Option UInt8 → Reader β} {blanks t : Bytes} {c : UInt8}
    (blank : AllBlank blanks) (solid : isBlank c = false) :
    (next? >>= f) (blanks ++ c :: t) = StateT.run (f (some c)) (c :: t) := by
  rw [next?_bind, List.dropWhile_append_of_pos blank,
    List.dropWhile_cons_of_neg (by simp [solid])]
  rfl

theorem next?_bind_eq_ok {f : Option UInt8 → Reader β} {b : β}
    (atEnd : ∀ result, StateT.run (f none) [] ≠ .ok result) :
    (next? >>= f) bytes = .ok (b, rest) ↔
      ∃ blanks c t, AllBlank blanks ∧ isBlank c = false ∧ bytes = blanks ++ c :: t ∧
        StateT.run (f (some c)) (c :: t) = .ok (b, rest) := by
  constructor
  · intro h
    rw [next?_bind] at h
    have whole := List.takeWhile_append_dropWhile (p := isBlank) (l := bytes)
    cases left : bytes.dropWhile isBlank with
    | nil =>
      rw [left] at h
      exact absurd h (atEnd _)
    | cons c t =>
      rw [left] at h whole
      have solid : isBlank c = false := by
        have first := List.head?_dropWhile_not isBlank bytes
        simpa [left] using first
      exact ⟨_, c, t, allBlank_takeWhile bytes, solid, whole.symm, h⟩
  · rintro ⟨blanks, c, t, blank, solid, rfl, h⟩
    rwa [next?_bind_append blank solid]

theorem word_eq_ok {w : Bytes} {u : Unit} :
    word w bytes = .ok (u, rest) ↔ bytes = w ++ rest := by
  induction w generalizing bytes with
  | nil => simp [word]
  | cons b w ih =>
    rw [word, take?_bind]
    cases bytes with
    | nil => exact ⟨fun h => absurd h throw_ne_ok, nofun⟩
    | cons c bytes =>
      simp only [List.head?_cons, List.tail_cons, List.cons_append, List.cons.injEq]
      split
      · rename_i same
        exact ih.trans (by simp [same])
      · rename_i other
        exact ⟨fun h => absurd h throw_ne_ok, fun h => absurd h.1 other⟩

theorem run_eq_ok {p : UInt8 → Bool} {t : Bytes} :
    run p bytes = .ok (t, rest) ↔
      (∀ b ∈ t, p b) ∧ (∀ b ∈ rest.head?, p b = false) ∧ bytes = t ++ rest := by
  simp only [run, Except.ok.injEq, Prod.mk.injEq]
  constructor
  · rintro ⟨rfl, rfl⟩
    refine ⟨List.all_eq_true.1 List.all_takeWhile, fun b first => ?_,
      List.takeWhile_append_dropWhile.symm⟩
    have stops := List.head?_dropWhile_not p bytes
    rw [Option.mem_def.1 first] at stops
    simpa using stops
  · rintro ⟨inside, stops, rfl⟩
    have behind : rest.takeWhile p = [] ∧ rest.dropWhile p = rest := by
      cases rest with
      | nil => exact ⟨rfl, rfl⟩
      | cons b rest => simp [stops b rfl]
    rw [List.takeWhile_append_of_pos inside, List.dropWhile_append_of_pos inside, behind.1,
      behind.2]
    exact ⟨List.append_nil t, rfl⟩

theorem readAll_eq_ok {reader : Reader α} {a : α} :
    readAll reader bytes = .ok a ↔ ∃ rest, reader bytes = .ok (a, rest) ∧ AllBlank rest := by
  simp only [readAll, bind, Except.bind]
  cases reader bytes with
  | error e => simp
  | ok result =>
    obtain ⟨value, rest⟩ := result
    have all : rest.all isBlank ↔ AllBlank rest := List.all_eq_true
    by_cases blank : AllBlank rest
    · simp [all.2 blank, blank, pure, Except.pure]
    · simp [mt all.1 blank, blank, throw, throwThe, MonadExceptOf.throw]

/-! ## Readers that only name a fault -/

def Fails (reader : Reader α) : Prop :=
  ∀ bytes a rest, reader bytes ≠ .ok (a, rest)

theorem fails_throw {e : Error} : Fails (throw e : Reader α) :=
  fun _ _ _ => throw_ne_ok

theorem Fails.bind {reader : Reader α} {f : α → Reader β} (fails : ∀ a, Fails (f a)) :
    Fails (reader >>= f) := by
  intro bytes b rest h
  obtain ⟨a, mid, -, h⟩ := bind_eq_ok.1 h
  exact fails a mid b rest h

/-! ## Loops -/

inductive Runs (step : σ → Reader (σ ⊕ α)) : σ → Bytes → α → Bytes → Prop where
  | done {state : σ} {bytes rest : Bytes} {a : α}
    (last : step state bytes = .ok (.inr a, rest)) : Runs step state bytes a rest
  | more {state next : σ} {bytes mid rest : Bytes} {a : α}
    (first : step state bytes = .ok (.inl next, mid)) (further : Runs step next mid a rest) :
    Runs step state bytes a rest

def Progresses (step : σ → Reader (σ ⊕ α)) : Prop :=
  ∀ state bytes next mid, step state bytes = .ok (.inl next, mid) → mid.length < bytes.length

theorem iterate_eq_ok {step : σ → Reader (σ ⊕ α)} (progresses : Progresses step) {state : σ}
    {a : α} : iterate step state bytes = .ok (a, rest) ↔ Runs step state bytes a rest := by
  have go {n : Nat} {state : σ} {bytes : Bytes} (long : bytes.length < n) :
      iterate.go step n state bytes = .ok (a, rest) ↔ Runs step state bytes a rest := by
    induction n generalizing state bytes with
    | zero => exact absurd long (Nat.not_lt_zero _)
    | succ n ih =>
      rw [iterate.go, bind_eq_ok]
      constructor
      · rintro ⟨next | b, mid, first, rest⟩
        · have shorter := progresses _ _ _ _ first
          exact .more first ((ih (by omega)).1 rest)
        · obtain ⟨rfl, rfl⟩ := pure_eq_ok.1 rest
          exact .done first
      · intro run
        cases run with
        | done last => exact ⟨_, _, last, pure_eq_ok.2 ⟨rfl, rfl⟩⟩
        | more first further =>
          have shorter := progresses _ _ _ _ first
          exact ⟨_, _, first, (ih (by omega)).2 further⟩
  exact go (Nat.lt_succ_self _)

end Reader

end ProjectClient.Json

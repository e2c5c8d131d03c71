import ProjectClient.Proofs.Json.Runs
import ProjectClient.Proofs.Text.Utf8

/-! Strings. A reader gathers bytes, and what it gathered is a text in the end. Since no character's
bytes begin another's and only a first byte looks like one, the spelling can be told from them. -/
namespace ProjectClient.Json

section

variable {c : Char} {b : UInt8}

theorem isPlain_iff : IsPlain b ↔ 0x20 ≤ b.toNat ∧ b.toNat ≠ 0x22 ∧ b.toNat ≠ 0x5c := by
  simp only [IsPlain, UInt8.le_iff_toNat_le, ne_eq, ← UInt8.toNat_inj]
  exact Iff.rfl

theorem ne_marks_iff : c ≠ '"' ∧ c ≠ '\\' ↔ c.toNat ≠ 0x22 ∧ c.toNat ≠ 0x5c := by
  simp only [ne_eq, ← Char.toNat_inj]
  exact Iff.rfl

theorem isPlain_of_mem (visible : 0x20 ≤ c.toNat) (notMark : c ≠ '"' ∧ c ≠ '\\')
    (h : b ∈ String.utf8EncodeChar c) : IsPlain b := by
  rw [isPlain_iff]
  by_cases low : c.toNat < 0x80
  · rw [Text.utf8EncodeChar_low low, List.mem_singleton] at h
    rw [h, Text.toNat_of_low low]
    exact ⟨visible, ne_marks_iff.1 notMark⟩
  · have large := Text.le_of_mem_high (Nat.le_of_not_lt low) h
    omega

theorem of_isPlain {more : Bytes} (bytes : String.utf8EncodeChar c = b :: more)
    (plain : IsPlain b) : 0x20 ≤ c.toNat ∧ c ≠ '"' ∧ c ≠ '\\' := by
  rw [ne_marks_iff]
  by_cases low : c.toNat < 0x80
  · rw [Text.utf8EncodeChar_low low] at bytes
    cases bytes
    rwa [isPlain_iff, Text.toNat_of_low low] at plain
  · omega

end

inductive Gathers : Bytes → Bytes → Prop where
  | nil : Gathers [] []
  | raw {b : UInt8} {t gathered : Bytes} (plain : IsPlain b) (rest : Gathers t gathered) :
    Gathers (b :: t) (b :: gathered)
  | escape {c : Char} {e t gathered : Bytes} (isEscape : IsEscape c e)
    (rest : Gathers t gathered) : Gathers (e ++ t) (String.utf8EncodeChar c ++ gathered)

theorem Gathers.plain {k t gathered : Bytes} (plain : ∀ b ∈ k, IsPlain b)
    (rest : Gathers t gathered) : Gathers (k ++ t) (k ++ gathered) := by
  induction k with
  | nil => exact rest
  | cons b k ih =>
    rw [List.forall_mem_cons] at plain
    exact .raw plain.1 (ih plain.2)

/-- Bytes inside a character are gathered from themselves. -/
theorem Gathers.split {k t gathered : Bytes} (inner : ∀ b ∈ k, ¬ b.IsUTF8FirstByte)
    (h : Gathers t (k ++ gathered)) : ∃ t', t = k ++ t' ∧ Gathers t' gathered := by
  induction k generalizing t with
  | nil => exact ⟨t, rfl, h⟩
  | cons b k ih =>
    rw [List.forall_mem_cons] at inner
    generalize same : b :: k ++ gathered = all at h
    cases h with
    | nil => cases same
    | raw plain rest =>
      cases same
      obtain ⟨t', rfl, h⟩ := ih inner.2 rest
      exact ⟨t', rfl, h⟩
    | @escape c e t g isEscape rest =>
      obtain ⟨b', more, bytes, first, -⟩ := Text.utf8EncodeChar_eq_cons c
      rw [bytes] at same
      exact absurd ((List.cons.inj same).1 ▸ first) inner.1

theorem Spells.gathers {cs : List Char} {t : Bytes} (spells : Spells cs t) :
    Gathers t (cs.flatMap String.utf8EncodeChar) := by
  induction spells with
  | nil => exact .nil
  | raw visible notMark rest ih =>
    exact .plain (fun b h => isPlain_of_mem visible notMark h) ih
  | escape isEscape rest ih => exact .escape isEscape ih

theorem Gathers.spells {cs : List Char} {t : Bytes}
    (h : Gathers t (cs.flatMap String.utf8EncodeChar)) : Spells cs t := by
  induction cs generalizing t with
  | nil =>
    generalize same : List.flatMap String.utf8EncodeChar [] = all at h
    cases h with
    | nil => exact .nil
    | raw => cases same
    | @escape c e t g isEscape rest =>
      obtain ⟨b, more, bytes, -⟩ := Text.utf8EncodeChar_eq_cons c
      rw [bytes] at same
      cases same
  | cons c cs ih =>
    rw [List.flatMap_cons] at h
    obtain ⟨b, more, bytes, -, inner⟩ := Text.utf8EncodeChar_eq_cons c
    generalize same : String.utf8EncodeChar c ++ cs.flatMap String.utf8EncodeChar = all at h
    cases h with
    | nil =>
      rw [bytes] at same
      cases same
    | raw plain rest =>
      -- The other bytes of the character cannot come from an escape, so they are raw as well.
      rw [bytes, List.cons_append, List.cons.injEq] at same
      obtain ⟨rfl, rfl⟩ := same
      obtain ⟨t', rfl, further⟩ := rest.split inner
      obtain ⟨visible, notMark⟩ := of_isPlain bytes plain
      have spelled := Spells.raw visible notMark (ih further)
      rwa [bytes] at spelled
    | escape isEscape rest =>
      obtain ⟨rfl, rfl⟩ := Text.utf8EncodeChar_append_inj same
      exact .escape isEscape (ih rest)

/-! ## Escapes -/

theorem Reader.hexDigit?_lt {b : UInt8} {n : Nat} (h : hexDigit? b = some n) : n < 16 := by
  have bound := b.toNat_lt
  simp only [hexDigit?, isDigit, Bool.and_eq_true, decide_eq_true_eq, UInt8.le_iff_toNat_le] at h
  split at h
  · rename_i digit
    have high : b.toNat ≤ 0x39 := digit.2
    cases h
    omega
  · split at h
    · rename_i letter
      have high : b.toNat ≤ 0x66 := letter.2
      cases h
      omega
    · split at h
      · rename_i letter
        have high : b.toNat ≤ 0x46 := letter.2
        cases h
        omega
      · cases h

theorem IsCodeUnit.lt {n : Nat} {t : Bytes} (h : IsCodeUnit n t) : n < 0x10000 := by
  obtain ⟨a, b, c, d, digits, rfl⟩ := h
  have each : ∀ n ∈ [a, b, c, d], n < 16 := by
    intro n inside
    have inMap : some n ∈ t.map Reader.hexDigit? := by
      rw [digits]
      exact List.mem_map_of_mem inside
    obtain ⟨b, -, h⟩ := List.mem_map.1 inMap
    exact Reader.hexDigit?_lt h
  simp only [List.forall_mem_cons] at each
  omega

namespace Reader

variable {bytes rest : Bytes}

theorem codeUnit_eq_ok {n : Nat} :
    codeUnit bytes = .ok (n, rest) ↔ ∃ t, IsCodeUnit n t ∧ bytes = t ++ rest := by
  constructor
  · intro h
    unfold codeUnit at h
    split at h
    · split at h
      · rename_i ha hb hc hd
        cases h
        exact ⟨[_, _, _, _], ⟨_, _, _, _, by simp [ha, hb, hc, hd], rfl⟩, rfl⟩
      · cases h
    · cases h
  · rintro ⟨t, ⟨a, b, c, d, digits, rfl⟩, rfl⟩
    simp only [List.map_eq_cons_iff, List.map_eq_nil_iff] at digits
    obtain ⟨a', t, rfl, ha, b', t', rfl, hb, c', t'', rfl, hc, d', t''', rfl, hd, rfl⟩ := digits
    simp [codeUnit, ha, hb, hc, hd]

theorem pairByte_eq_ok {b : UInt8} {u : Unit} :
    pairByte b bytes = .ok (u, rest) ↔ bytes = b :: rest := by
  rw [pairByte, take?_bind]
  cases bytes with
  | nil => exact ⟨fun h => absurd h throw_ne_ok, nofun⟩
  | cons c bytes =>
    simp only [List.head?_cons, List.tail_cons, List.cons.injEq, StateT.run]
    split <;> simp_all

theorem ofNat_eq_iff {n : Nat} (valid : n.isValidChar) {c : Char} :
    Char.ofNat n = c ↔ c.toNat = n := by
  have back : (Char.ofNat n).toNat = n := by
    rw [Char.ofNat, dif_pos valid]
    rfl
  rw [← Char.toNat_inj, back, eq_comm]

theorem isSecondHalf_iff {n : Nat} : isSecondHalf n ↔ 0xdc00 ≤ n ∧ n < 0xe000 := by
  simp [isSecondHalf]

theorem isFirstHalf_iff {n : Nat} : isFirstHalf n ↔ 0xd800 ≤ n ∧ n < 0xdc00 := by
  simp [isFirstHalf]

theorem letter_ne_u {b : UInt8} {c : Char} (known : (b, c) ∈ letterEscapes) : b ≠ letterU :=
  (by decide : ∀ p ∈ letterEscapes, p.1 ≠ letterU) _ known

theorem codeUnits_eq_ok {c : Char} :
    codeUnits bytes = .ok (c, rest) ↔
      ∃ t, IsEscape c (backslash :: letterU :: t) ∧ bytes = t ++ rest := by
  rw [codeUnits, bind_eq_ok]
  simp only [codeUnit_eq_ok]
  constructor
  · rintro ⟨n, _, ⟨s, isUnit, rfl⟩, h⟩
    have small := isUnit.lt
    split at h
    · exact absurd h throw_ne_ok
    · rename_i notSecond
      rw [isSecondHalf_iff] at notSecond
      split at h
      · rename_i first
        rw [isFirstHalf_iff] at first
        simp only [bind_eq_ok, pairByte_eq_ok, codeUnit_eq_ok] at h
        obtain ⟨_, _, rfl, _, _, rfl, m, _, ⟨t, isUnit', rfl⟩, h⟩ := h
        split at h
        · rename_i second
          rw [isSecondHalf_iff] at second
          obtain ⟨value, rfl⟩ := pure_eq_ok.1 h
          rw [ofNat_eq_iff (by omega)] at value
          exact ⟨_, .pair isUnit isUnit' first second value, by simp⟩
        · exact absurd h throw_ne_ok
      · rename_i notFirst
        rw [isFirstHalf_iff] at notFirst
        obtain ⟨value, rfl⟩ := pure_eq_ok.1 h
        rw [ofNat_eq_iff (by omega)] at value
        exact ⟨s, .unit isUnit value, rfl⟩
  · rintro ⟨t, isEscape, rfl⟩
    cases isEscape with
    | letter known => exact absurd rfl (letter_ne_u known)
    | @unit n _ isUnit value =>
      have valid : c.toNat.isValidChar := c.valid
      have notSecond : ¬ isSecondHalf n := mt isSecondHalf_iff.1 (by omega)
      have notFirst : ¬ isFirstHalf n := mt isFirstHalf_iff.1 (by omega)
      refine ⟨_, _, ⟨_, isUnit, rfl⟩, ?_⟩
      rw [if_neg notSecond, if_neg notFirst, ← value, Char.ofNat_toNat]
      rfl
    | @pair first _ _ _ isFirst isSecond high low value =>
      have notSecond : ¬ isSecondHalf first := mt isSecondHalf_iff.1 (by omega)
      refine ⟨_, _, ⟨_, isFirst, List.append_assoc ..⟩, ?_⟩
      rw [if_neg notSecond, if_pos (isFirstHalf_iff.2 high)]
      simp only [bind_eq_ok, pairByte_eq_ok, codeUnit_eq_ok]
      refine ⟨(), _, rfl, (), _, rfl, _, _, ⟨_, isSecond, rfl⟩, ?_⟩
      rw [if_pos (isSecondHalf_iff.2 low), ← value, Char.ofNat_toNat]
      rfl

theorem letterEscape?_of_mem {b : UInt8} {c : Char} (known : (b, c) ∈ letterEscapes) :
    (letterEscape? b).map ([·]) = some (String.utf8EncodeChar c) :=
  (by decide : ∀ p ∈ letterEscapes,
    (letterEscape? p.1).map ([·]) = some (String.utf8EncodeChar p.2)) _ known

theorem mem_of_letterEscape? {b x : UInt8} (h : letterEscape? b = some x) :
    ∃ c, (b, c) ∈ letterEscapes := by
  have isKey : b ∈ letterEscapes.map Prod.fst := by
    refine Decidable.byContradiction fun notKey => ?_
    simp only [letterEscapes, List.map_cons, List.map_nil, List.mem_cons, List.not_mem_nil,
      or_false, not_or] at notKey
    simp [letterEscape?, notKey] at h
  obtain ⟨⟨_, c⟩, known, rfl⟩ := List.mem_map.1 isKey
  exact ⟨c, known⟩

theorem escape_eq_ok {gathered : Bytes} :
    escape bytes = .ok (gathered, rest) ↔
      ∃ c e, IsEscape c (backslash :: e) ∧ gathered = String.utf8EncodeChar c ∧
        bytes = e ++ rest := by
  constructor
  · intro h
    rw [escape, take?_bind] at h
    cases bytes with
    | nil => exact absurd h throw_ne_ok
    | cons b bytes =>
      rw [List.head?_cons, List.tail_cons] at h
      split at h
      · cases ‹some b = none›
      · cases ‹some b = some letterU›
        simp only [StateT.run, bind_eq_ok, codeUnits_eq_ok, pure_eq_ok] at h
        obtain ⟨c, _, ⟨t, isEscape, rfl⟩, rfl, rfl⟩ := h
        exact ⟨c, letterU :: t, isEscape, rfl, rfl⟩
      · cases ‹some b = some _›
        split at h
        · rename_i x stands
          obtain ⟨c, known⟩ := mem_of_letterEscape? stands
          have encoded := letterEscape?_of_mem known
          rw [stands] at encoded
          obtain ⟨rfl, rfl⟩ := pure_eq_ok.1 h
          exact ⟨c, [b], .letter known, Option.some.inj encoded, rfl⟩
        · exact absurd h throw_ne_ok
  · rintro ⟨c, e, isEscape, rfl, rfl⟩
    have unit {t : Bytes} (isEscape : IsEscape c (backslash :: letterU :: t)) :
        escape (letterU :: t ++ rest) = .ok (String.utf8EncodeChar c, rest) := by
      rw [escape, take?_bind]
      exact bind_eq_ok.2 ⟨c, rest, codeUnits_eq_ok.2 ⟨t, isEscape, rfl⟩, rfl⟩
    cases isEscape with
    | @letter b known =>
      have encoded := letterEscape?_of_mem known
      obtain ⟨x, stands, single⟩ := Option.map_eq_some_iff.1 encoded
      rw [escape, take?_bind, List.singleton_append, List.head?_cons]
      split
      · contradiction
      · cases ‹some b = some letterU›
        exact absurd rfl (letter_ne_u known)
      · cases ‹some b = some _›
        rw [stands, ← single]
        rfl
    | unit isUnit value => exact unit (.unit isUnit value)
    | pair isFirst isSecond high low value =>
      exact unit (.pair isFirst isSecond high low value)

/-! ## Strings that are used -/

theorem stringStep_eq_ok {reversed : Bytes} {next : Bytes ⊕ String} :
    stringStep reversed bytes = .ok (next, rest) ↔
      (∃ text, Text.ofUtf8? reversed.reverse = some text ∧ next = .inr text ∧
        bytes = quotationMark :: rest) ∨
      (∃ b, IsPlain b ∧ next = .inl (b :: reversed) ∧ bytes = b :: rest) ∨
      ∃ c e, IsEscape c e ∧ next = .inl ((String.utf8EncodeChar c).reverse ++ reversed) ∧
        bytes = e ++ rest := by
  constructor
  · intro h
    rw [stringStep, take?_bind] at h
    cases bytes with
    | nil => exact absurd h throw_ne_ok
    | cons b bytes =>
      rw [List.head?_cons, List.tail_cons] at h
      split at h
      · cases ‹some b = none›
      · cases ‹some b = some quotationMark›
        split at h
        · obtain ⟨rfl, rfl⟩ := pure_eq_ok.1 h
          exact .inl ⟨_, ‹_›, rfl, rfl⟩
        · exact absurd h throw_ne_ok
      · cases ‹some b = some backslash›
        simp only [StateT.run, bind_eq_ok, escape_eq_ok, pure_eq_ok] at h
        obtain ⟨_, _, ⟨c, e, isEscape, rfl, rfl⟩, rfl, rfl⟩ := h
        exact .inr (.inr ⟨c, backslash :: e, isEscape, rfl, rfl⟩)
      · cases ‹some b = some _›
        split at h
        · exact absurd h throw_ne_ok
        · rename_i notMark notBackslash visible
          obtain ⟨rfl, rfl⟩ := pure_eq_ok.1 h
          exact .inr (.inl ⟨b, ⟨UInt8.not_lt.1 visible, notMark, notBackslash⟩, rfl, rfl⟩)
  · rintro (⟨text, whole, rfl, rfl⟩ | ⟨b, ⟨visible, notMark, notBackslash⟩, rfl, rfl⟩ |
      ⟨c, e, isEscape, rfl, rfl⟩)
    · rw [stringStep, take?_bind]
      simp only [List.head?_cons, whole]
      rfl
    · rw [stringStep, take?_bind, List.head?_cons]
      split
      · contradiction
      · cases ‹some b = some quotationMark›
        exact absurd rfl notMark
      · cases ‹some b = some backslash›
        exact absurd rfl notBackslash
      · cases ‹some b = some _›
        rw [if_neg (UInt8.not_lt.2 visible)]
        rfl
    · obtain ⟨e, rfl⟩ : ∃ e', e = backslash :: e' := by cases isEscape <;> exact ⟨_, rfl⟩
      rw [stringStep, take?_bind]
      exact bind_eq_ok.2 ⟨_, _, escape_eq_ok.2 ⟨c, e, isEscape, rfl, rfl⟩, rfl⟩

theorem stringStep_progresses : Progresses stringStep := by
  intro reversed bytes next rest h
  rw [stringStep_eq_ok] at h
  obtain ⟨_, -, ended, -⟩ | ⟨b, -, -, rfl⟩ | ⟨c, e, isEscape, -, rfl⟩ := h
  · cases ended
  · simp
  · have long : 0 < e.length := by cases isEscape <;> simp
    rw [List.length_append]
    omega

theorem runs_stringStep {reversed : Bytes} {text : String} :
    Runs stringStep reversed bytes text rest ↔
      ∃ inside gathered, Gathers inside gathered ∧
        Text.ofUtf8? (reversed.reverse ++ gathered) = some text ∧
        bytes = inside ++ quotationMark :: rest := by
  constructor
  · intro run
    induction run with
    | done last =>
      obtain ⟨_, whole, ended, rfl⟩ | ⟨_, _, goesOn, _⟩ | ⟨_, _, _, goesOn, _⟩ :=
        stringStep_eq_ok.1 last
      · cases ended
        exact ⟨[], [], .nil, by rwa [List.append_nil], rfl⟩
      · cases goesOn
      · cases goesOn
    | more first further ih =>
      obtain ⟨inside, gathered, gathers, whole, rfl⟩ := ih
      obtain ⟨_, _, ended, _⟩ | ⟨b, plain, goesOn, rfl⟩ | ⟨c, e, isEscape, goesOn, rfl⟩ :=
        stringStep_eq_ok.1 first
      · cases ended
      · cases goesOn
        exact ⟨_, _, .raw plain gathers, by simpa using whole, rfl⟩
      · cases goesOn
        exact ⟨_, _, .escape isEscape gathers, by simpa using whole, by simp⟩
  · rintro ⟨inside, gathered, gathers, whole, rfl⟩
    induction gathers generalizing reversed with
    | nil =>
      rw [List.append_nil] at whole
      exact .done (stringStep_eq_ok.2 (.inl ⟨text, whole, rfl, rfl⟩))
    | raw plain _ ih =>
      exact .more (stringStep_eq_ok.2 (.inr (.inl ⟨_, plain, rfl, rfl⟩)))
        (ih (by simpa using whole))
    | escape isEscape _ ih =>
      rw [List.append_assoc]
      exact .more (stringStep_eq_ok.2 (.inr (.inr ⟨_, _, isEscape, rfl, rfl⟩)))
        (ih (by simpa using whole))

theorem string_eq_ok {text : String} :
    string bytes = .ok (text, rest) ↔
      ∃ inside, Spells text.toList inside ∧ bytes = inside ++ quotationMark :: rest := by
  rw [string, iterate_eq_ok stringStep_progresses, runs_stringStep]
  constructor
  · rintro ⟨inside, gathered, gathers, whole, rfl⟩
    rw [List.reverse_nil, List.nil_append, Text.ofUtf8?_eq_some] at whole
    exact ⟨inside, (whole ▸ gathers).spells, rfl⟩
  · rintro ⟨inside, spells, rfl⟩
    exact ⟨inside, _, spells.gathers, Text.ofUtf8?_eq_some.2 rfl, rfl⟩

/-! ## Strings that are skipped -/

theorem skipEscape_eq_ok {u : Unit} :
    skipEscape bytes = .ok (u, rest) ↔
      (∃ b c, (b, c) ∈ letterEscapes ∧ bytes = b :: rest) ∨
      ∃ n t, IsCodeUnit n t ∧ bytes = letterU :: (t ++ rest) := by
  constructor
  · intro h
    rw [skipEscape, take?_bind] at h
    cases bytes with
    | nil => exact absurd h throw_ne_ok
    | cons b bytes =>
      rw [List.head?_cons, List.tail_cons] at h
      split at h
      · cases ‹some b = none›
      · cases ‹some b = some letterU›
        simp only [StateT.run, bind_eq_ok, codeUnit_eq_ok, pure_eq_ok] at h
        obtain ⟨n, _, ⟨t, isUnit, rfl⟩, -, rfl⟩ := h
        exact .inr ⟨n, t, isUnit, rfl⟩
      · cases ‹some b = some _›
        split at h
        · rename_i stands
          obtain ⟨x, stands⟩ := Option.isSome_iff_exists.1 stands
          obtain ⟨c, known⟩ := mem_of_letterEscape? stands
          obtain ⟨-, rfl⟩ := pure_eq_ok.1 h
          exact .inl ⟨b, c, known, rfl⟩
        · exact absurd h throw_ne_ok
  · rintro (⟨b, c, known, rfl⟩ | ⟨n, t, isUnit, rfl⟩)
    · obtain ⟨x, stands, -⟩ := Option.map_eq_some_iff.1 (letterEscape?_of_mem known)
      rw [skipEscape, take?_bind, List.head?_cons]
      split
      · contradiction
      · cases ‹some b = some letterU›
        exact absurd rfl (letter_ne_u known)
      · cases ‹some b = some _›
        rw [stands]
        rfl
    · rw [skipEscape, take?_bind]
      exact bind_eq_ok.2 ⟨n, rest, codeUnit_eq_ok.2 ⟨t, isUnit, rfl⟩, rfl⟩

theorem skipStringStep_eq_ok {u : Unit} {next : Unit ⊕ Unit} :
    skipStringStep u bytes = .ok (next, rest) ↔
      next = .inr () ∧ bytes = quotationMark :: rest ∨
      next = .inl () ∧ ∃ t, IsLooseSign t ∧ bytes = t ++ rest := by
  constructor
  · intro h
    rw [skipStringStep, take?_bind] at h
    cases bytes with
    | nil => exact absurd h throw_ne_ok
    | cons b bytes =>
      rw [List.head?_cons, List.tail_cons] at h
      split at h
      · cases ‹some b = none›
      · cases ‹some b = some quotationMark›
        obtain ⟨rfl, rfl⟩ := pure_eq_ok.1 h
        exact .inl ⟨rfl, rfl⟩
      · cases ‹some b = some backslash›
        simp only [StateT.run, bind_eq_ok, skipEscape_eq_ok, pure_eq_ok] at h
        obtain ⟨_, _, ⟨b, c, known, rfl⟩ | ⟨n, t, isUnit, rfl⟩, rfl, rfl⟩ := h
        · exact .inr ⟨rfl, _, .letter known, rfl⟩
        · exact .inr ⟨rfl, _, .unit isUnit, rfl⟩
      · cases ‹some b = some _›
        split at h
        · exact absurd h throw_ne_ok
        · rename_i notMark notBackslash visible
          obtain ⟨rfl, rfl⟩ := pure_eq_ok.1 h
          exact .inr ⟨rfl, [b], .raw ⟨UInt8.not_lt.1 visible, notMark, notBackslash⟩, rfl⟩
  · rintro (⟨rfl, rfl⟩ | ⟨rfl, t, isSign, rfl⟩)
    · rfl
    · cases isSign with
      | @raw b plain =>
        rw [skipStringStep, take?_bind, List.singleton_append, List.head?_cons]
        split
        · contradiction
        · cases ‹some b = some quotationMark›
          exact absurd rfl plain.2.1
        · cases ‹some b = some backslash›
          exact absurd rfl plain.2.2
        · cases ‹some b = some _›
          rw [if_neg (UInt8.not_lt.2 plain.1)]
          rfl
      | letter known =>
        rw [skipStringStep, take?_bind]
        exact bind_eq_ok.2 ⟨(), rest, skipEscape_eq_ok.2 (.inl ⟨_, _, known, rfl⟩), rfl⟩
      | unit isUnit =>
        rw [skipStringStep, take?_bind]
        exact bind_eq_ok.2 ⟨(), rest, skipEscape_eq_ok.2 (.inr ⟨_, _, isUnit, rfl⟩), rfl⟩

theorem skipStringStep_progresses : Progresses skipStringStep := by
  intro u bytes next rest h
  obtain ⟨ended, -⟩ | ⟨-, t, isSign, rfl⟩ := skipStringStep_eq_ok.1 h
  · cases ended
  · have long : 0 < t.length := by cases isSign <;> simp
    rw [List.length_append]
    omega

theorem skipString_eq_ok {u : Unit} :
    skipString bytes = .ok (u, rest) ↔
      ∃ inside, IsLoose inside ∧ bytes = inside ++ quotationMark :: rest := by
  rw [skipString, iterate_eq_ok skipStringStep_progresses]
  constructor
  · intro run
    generalize () = state at run
    induction run with
    | done last =>
      obtain ⟨-, rfl⟩ | ⟨goesOn, -⟩ := skipStringStep_eq_ok.1 last
      · exact ⟨[], .nil, rfl⟩
      · cases goesOn
    | more first further ih =>
      obtain ⟨inside, isLoose, rfl⟩ := ih
      obtain ⟨ended, -⟩ | ⟨-, t, isSign, rfl⟩ := skipStringStep_eq_ok.1 first
      · cases ended
      · exact ⟨t ++ inside, .sign isSign isLoose, by rw [List.append_assoc]⟩
  · rintro ⟨inside, isLoose, rfl⟩
    induction isLoose with
    | nil => exact .done (skipStringStep_eq_ok.2 (.inl ⟨rfl, rfl⟩))
    | sign isSign _ ih =>
      rw [List.append_assoc]
      exact .more (skipStringStep_eq_ok.2 (.inr ⟨rfl, _, isSign, rfl⟩)) ih

end Reader

/-! ## A string that can be used can be skipped -/

theorem IsLoose.plain {k t : Bytes} (plain : ∀ b ∈ k, IsPlain b) (rest : IsLoose t) :
    IsLoose (k ++ t) := by
  induction k with
  | nil => exact rest
  | cons b k ih =>
    rw [List.forall_mem_cons] at plain
    exact IsLoose.sign (s := [b]) (.raw plain.1) (ih plain.2)

theorem IsEscape.isLoose {c : Char} {e t : Bytes} (isEscape : IsEscape c e) (rest : IsLoose t) :
    IsLoose (e ++ t) := by
  cases isEscape with
  | letter known => exact .sign (.letter known) rest
  | unit isUnit value => exact .sign (.unit isUnit) rest
  | pair isFirst isSecond high low value =>
    have both := IsLoose.sign (.unit isFirst) (.sign (.unit isSecond) rest)
    simpa using both

theorem Spells.isLoose {cs : List Char} {t : Bytes} (spells : Spells cs t) : IsLoose t := by
  induction spells with
  | nil => exact .nil
  | raw visible notMark _ ih => exact .plain (fun b h => isPlain_of_mem visible notMark h) ih
  | escape isEscape _ ih => exact isEscape.isLoose ih

theorem IsString.isLooseString {text : String} {t : Bytes} (h : IsString text t) :
    IsLooseString t := by
  obtain ⟨inside, spells, rfl⟩ := h
  exact ⟨inside, spells.isLoose, rfl⟩

end ProjectClient.Json

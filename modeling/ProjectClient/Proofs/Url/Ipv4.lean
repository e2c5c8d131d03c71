import ProjectClient.Proofs.Text.Split
import ProjectClient.Proofs.Url.Path
import ProjectClient.Url.Ipv4

/-! Numbers and dotted addresses are read as they are written. -/
namespace ProjectClient.Url

variable {base n : Nat} {c : Char}

theorem hexValue?_digitChar {d : Nat} (small : d < 16) : hexValue? d.digitChar = some d := by
  revert d
  decide

theorem toDigits_concat {m d : Nat} (lower : 1 < base) (pos : 0 < m) (small : d < base) :
    Nat.toDigits base (base * m + d) = Nat.toDigits base m ++ [d.digitChar] := by
  rw [← Nat.toDigits_append_toDigits lower pos small, Nat.toDigits_of_lt_base small]

theorem mem_toDigits (lower : 1 < base) (h : c ∈ Nat.toDigits base n) :
    ∃ d < base, c = d.digitChar := by
  induction n using Nat.base_induction base lower with
  | single d small =>
    rw [Nat.toDigits_of_lt_base small, List.mem_singleton] at h
    exact ⟨d, small, h⟩
  | digit m d small pos ih =>
    rw [toDigits_concat lower pos small, List.mem_append, List.mem_singleton] at h
    exact h.elim ih fun last => ⟨d, small, last⟩

theorem valueInBase?_concat {d : Nat} (upper : base ≤ 16) (small : d < base) (digits : List Char) :
    valueInBase? base (digits ++ [d.digitChar]) =
      (valueInBase? base digits).map fun value => value * base + d := by
  have digit (value : Nat) :
      ((hexValue? d.digitChar).bind fun digit =>
        if digit < base then some (value * base + digit) else none) =
      some (value * base + d) := by
    rw [hexValue?_digitChar (by omega), Option.bind_some, if_pos small]
  rw [valueInBase?, List.foldlM_append]
  simp only [List.foldlM_cons, List.foldlM_nil, Option.bind_eq_bind, Option.pure_def, digit,
    Option.bind_some]
  rw [valueInBase?, Option.map_eq_bind]
  rfl

theorem valueInBase?_toDigits (lower : 1 < base) (upper : base ≤ 16) (n : Nat) :
    valueInBase? base (Nat.toDigits base n) = some n := by
  induction n using Nat.base_induction base lower with
  | single d small =>
    rw [Nat.toDigits_of_lt_base small, ← List.nil_append [d.digitChar],
      valueInBase?_concat upper small]
    simp [valueInBase?]
  | digit m d small pos ih =>
    rw [toDigits_concat lower pos small, valueInBase?_concat upper small, ih, Option.map_some,
      Nat.mul_comm]

theorem head?_toDigits (pos : 0 < n) : (Nat.toDigits 10 n).head? ≠ some '0' := by
  induction n using Nat.base_induction 10 (by decide) with
  | single d small =>
    rw [Nat.toDigits_of_lt_base small]
    simpa using Nat.ne_of_gt pos
  | digit m d small more ih =>
    rw [toDigits_concat (by decide) more small, List.head?_append]
    cases first : (Nat.toDigits 10 m).head? with
    | none => exact absurd (List.head?_eq_none_iff.1 first) Nat.toDigits_ne_nil
    | some c =>
      rw [first] at ih
      exact ih more

theorem ipv4Number?_toDigits (n : Nat) : ipv4Number? (Nat.toDigits 10 n) = some n := by
  rcases Nat.eq_zero_or_pos n with rfl | pos
  · rfl
  have first := head?_toDigits pos
  have value : valueInBase? 10 (Nat.toDigits 10 n) = some n :=
    valueInBase?_toDigits (by decide) (by decide) n
  unfold ipv4Number?
  split
  case h_1 none => exact absurd none Nat.toDigits_ne_nil
  case h_6 => exact value
  all_goals
    rename_i zero
    rw [zero] at first
    exact absurd rfl first

def ipv4Bytes (address : UInt32) : List Nat :=
  [0x1000000, 0x10000, 0x100, 1].map (address.toNat / · % 256)

theorem hostParts_ipv4Text (address : UInt32) :
    hostParts (ipv4Text address).toList = (ipv4Bytes address).map (Nat.toDigits 10) := by
  have noPoint (n : Nat) : ∀ c ∈ Nat.toDigits 10 n, (c == '.') = false := by
    intro c digit
    have isDigit := Nat.isDigit_of_mem_toDigits (by decide) (by decide) digit
    rw [beq_eq_false_iff_ne]
    rintro rfl
    exact Bool.false_ne_true isDigit
  have parts : Text.splitOn (· == '.') (ipv4Text address).toList =
      (ipv4Bytes address).map (Nat.toDigits 10) := by
    simp only [ipv4Text, String.toList_append, Nat.toString_eq_repr, Nat.toList_repr,
      List.append_assoc]
    have point : ".".toList = ['.'] := rfl
    simp only [point, List.singleton_append, Text.splitOn_eq_splitOnP]
    rw [List.splitOnP_append_cons_of_forall_mem (noPoint _) _ rfl,
      List.splitOnP_append_cons_of_forall_mem (noPoint _) _ rfl,
      List.splitOnP_append_cons_of_forall_mem (noPoint _) _ rfl,
      List.splitOnP_eq_singleton (noPoint _)]
    rfl
  have last : ((ipv4Bytes address).map (Nat.toDigits 10)).getLast? ≠ some [] := by
    simp [ipv4Bytes, Nat.toDigits_ne_nil]
  rw [hostParts, parts, if_neg last]

theorem endsInNumber_ipv4Text (address : UInt32) : EndsInNumber (ipv4Text address).toList := by
  refine ⟨Nat.toDigits 10 (address.toNat / 1 % 256), ?_, .inl ⟨Nat.toDigits_ne_nil, ?_⟩⟩
  · rw [hostParts_ipv4Text]
    rfl
  · exact List.all_eq_true.2 fun c => Nat.isDigit_of_mem_toDigits (by decide) (by decide)

theorem ipv4Address?_ipv4Text (address : UInt32) :
    ipv4Address? (ipv4Text address).toList = some address := by
  have numbers : ((ipv4Bytes address).map (Nat.toDigits 10)).mapM ipv4Number? =
      some (ipv4Bytes address) := by
    simp [ipv4Bytes, ipv4Number?_toDigits]
  have small : address.toNat < 2 ^ 32 := address.toNat_lt
  have whole : ((address.toNat / 0x1000000 % 256 * 256 + address.toNat / 0x10000 % 256) * 256 +
      address.toNat / 0x100 % 256) * 256 + address.toNat % 256 = address.toNat := by omega
  rw [ipv4Address?, hostParts_ipv4Text, numbers]
  simp [ipv4Bytes, Nat.mod_lt, whole, -UInt32.ofNat_add, -UInt32.ofNat_mul]

theorem mem_ipv4Text {address : UInt32} (h : c ∈ (ipv4Text address).toList) :
    c = '.' ∨ ∃ d < 10, c = d.digitChar := by
  have digit {n : Nat} : c ∈ Nat.toDigits 10 n → ∃ d < 10, c = d.digitChar :=
    mem_toDigits (by decide)
  have point : c ∈ ".".toList → c = '.' := List.mem_singleton.1
  simp only [ipv4Text, String.toList_append, Nat.toString_eq_repr, Nat.toList_repr,
    List.mem_append] at h
  grind

end ProjectClient.Url

import ProjectClient.Proofs.Url.Ipv4
import ProjectClient.Url.Ipv6

/-! An IPv6 address is read as it is written, with the zeros that are left out. -/
namespace ProjectClient.Url

variable {piece : UInt16} {pieces : List UInt16} {rest : List Char}

/-! ## Pieces -/

def pieceDigits (piece : UInt16) : List Char :=
  Nat.toDigits 16 piece.toNat

theorem pieceDigits_ne_nil : pieceDigits piece ≠ [] :=
  Nat.toDigits_ne_nil

theorem length_pieceDigits : (pieceDigits piece).length ≤ 4 :=
  (Nat.length_toDigits_le_iff (by decide) (by decide)).2 piece.toNat_lt

theorem isHex_of_mem_pieceDigits {c : Char} (h : c ∈ pieceDigits piece) :
    (hexValue? c).isSome := by
  obtain ⟨d, small, rfl⟩ := mem_toDigits (by decide) h
  rw [hexValue?_digitChar small]
  rfl

theorem value_pieceDigits : valueInBase? 16 (pieceDigits piece) = some piece.toNat :=
  valueInBase?_toDigits (by decide) (by decide) _

theorem pieceDigits_append_ne_colon {other : List Char} :
    pieceDigits piece ++ rest ≠ ':' :: other := by
  intro same
  cases digits : pieceDigits piece with
  | nil => exact pieceDigits_ne_nil digits
  | cons c more =>
    have hex := isHex_of_mem_pieceDigits (digits ▸ List.mem_cons_self : c ∈ pieceDigits piece)
    rw [digits] at same
    cases same
    exact Bool.false_ne_true hex

theorem toList_pieceTexts (pieces : List UInt16) :
    (pieceTexts pieces).toList = [':'].intercalate (pieces.map pieceDigits) := by
  have colon : ":".toList = [':'] := rfl
  have digits :
      String.toList ∘ (fun piece : UInt16 => String.ofList (Nat.toDigits 16 piece.toNat)) =
        pieceDigits :=
    funext fun _ => String.toList_ofList
  rw [pieceTexts, String.toList_intercalate, List.map_map, digits, colon]

@[simp] theorem toList_pieceTexts_nil : (pieceTexts []).toList = [] := rfl

@[simp] theorem toList_pieceTexts_singleton : (pieceTexts [piece]).toList = pieceDigits piece := by
  simp [toList_pieceTexts]

@[simp] theorem toList_pieceTexts_cons_cons {next : UInt16} :
    (pieceTexts (piece :: next :: pieces)).toList =
      pieceDigits piece ++ ':' :: (pieceTexts (next :: pieces)).toList := by
  simp [toList_pieceTexts]

theorem toList_pieceTexts_cons (piece : UInt16) (pieces : List UInt16) :
    ∃ more, (pieceTexts (piece :: pieces)).toList = pieceDigits piece ++ more ∧
      (pieces ≠ [] → more ≠ []) := by
  cases pieces with
  | nil => exact ⟨[], by simp, by simp⟩
  | cons next pieces => exact ⟨_, toList_pieceTexts_cons_cons, by simp⟩

theorem mem_pieceTexts {c : Char} (h : c ∈ (pieceTexts pieces).toList) :
    c = ':' ∨ ∃ d < 16, c = d.digitChar := by
  induction pieces with
  | nil => simp at h
  | cons piece pieces ih =>
    cases pieces with
    | nil =>
      rw [toList_pieceTexts_singleton] at h
      exact .inr (mem_toDigits (by decide) h)
    | cons next pieces =>
      rw [toList_pieceTexts_cons_cons, List.mem_append, List.mem_cons] at h
      rcases h with digit | colon | later
      · exact .inr (mem_toDigits (by decide) digit)
      · exact .inl colon
      · exact ih later

/-! ## Reading pieces -/

namespace Ipv6Draft

variable {room : Nat} {draft : Ipv6Draft}

theorem takeWhile_pieceDigits (piece : UInt16) (rest : List Char)
    (next : ∀ c ∈ rest.head?, hexValue? c = none) :
    (((pieceDigits piece ++ rest).take 4).takeWhile fun c => (hexValue? c).isSome) =
      pieceDigits piece := by
  have stops (k : Nat) : ∀ c ∈ (rest.take k).head?, (hexValue? c).isSome = false := by
    intro c first
    cases rest with
    | nil => simp at first
    | cons d rest =>
      cases k with
      | zero => cases first
      | succ k =>
        cases first
        rw [next c rfl]
        rfl
  rw [List.take_append, List.take_of_length_le length_pieceDigits,
    Text.takeWhile_append_stop (fun _ => isHex_of_mem_pieceDigits) (stops _)]

theorem read?_pieceDigits (room : Nat) (draft : Ipv6Draft) (piece : UInt16) :
    read? (room + 1) draft (pieceDigits piece) = some (draft.push [piece.toNat]) := by
  have digits := takeWhile_pieceDigits piece [] nofun
  have start {other : List Char} : pieceDigits piece ++ [] ≠ ':' :: other :=
    pieceDigits_append_ne_colon
  rw [List.append_nil] at digits start
  rw [read?]
  · rw [digits, value_pieceDigits, List.drop_length]
    rfl
  · exact pieceDigits_ne_nil
  · exact fun _ => start

theorem read?_pieceDigits_colon (some : rest ≠ []) :
    read? (room + 1) draft (pieceDigits piece ++ ':' :: rest) =
      read? room (draft.push [piece.toNat]) rest := by
  have digits := takeWhile_pieceDigits piece (':' :: rest)
    (by simpa using (by decide : hexValue? ':' = none))
  rw [read?]
  · rw [digits, value_pieceDigits, List.drop_left]
    exact if_neg some
  · simp [pieceDigits_ne_nil]
  · exact fun _ => pieceDigits_append_ne_colon

theorem push_push (draft : Ipv6Draft) (more others : List Nat) :
    (draft.push more).push others = draft.push (more ++ others) := by
  simp [push]

theorem read?_pieceTexts (fits : pieces.length ≤ room) :
    read? room draft (pieceTexts pieces).toList = some (draft.push (pieces.map UInt16.toNat)) := by
  induction pieces generalizing room draft with
  | nil => simp [read?, push]
  | cons piece pieces ih =>
    obtain ⟨room, rfl⟩ : ∃ more, room = more + 1 := ⟨room - 1, by simp at fits; omega⟩
    cases pieces with
    | nil => simp [read?_pieceDigits]
    | cons next pieces =>
      have later : (pieceTexts (next :: pieces)).toList ≠ [] := by
        obtain ⟨more, text, -⟩ := toList_pieceTexts_cons next pieces
        rw [text]
        exact List.append_ne_nil_of_left_ne_nil pieceDigits_ne_nil more
      rw [toList_pieceTexts_cons_cons, read?_pieceDigits_colon later,
        ih (Nat.le_of_succ_le_succ fits), push_push]
      rfl

/-- Behind pieces and `::` reading goes on with the room that is left. -/
theorem read?_pieceTexts_gap (draft : Ipv6Draft) (some : pieces ≠ [])
    (fits : pieces.length < room) (rest : List Char) :
    read? room draft ((pieceTexts pieces).toList ++ ':' :: ':' :: rest) =
      (draft.push (pieces.map UInt16.toNat)).open?.bind fun opened =>
        read? (room - pieces.length - 1) opened rest := by
  induction pieces generalizing room draft with
  | nil => contradiction
  | cons piece pieces ih =>
    obtain ⟨room, rfl⟩ : ∃ more, room = more + 1 := ⟨room - 1, by omega⟩
    cases pieces with
    | nil =>
      obtain ⟨room, rfl⟩ : ∃ more, room = more + 1 := ⟨room - 1, by simp at fits; omega⟩
      rw [toList_pieceTexts_singleton, read?_pieceDigits_colon (List.cons_ne_nil _ _), read?]
      rfl
    | cons next pieces =>
      have left : room + 1 - (piece :: next :: pieces).length = room - (next :: pieces).length :=
        Nat.add_sub_add_right _ 1 _
      rw [toList_pieceTexts_cons_cons, List.append_assoc, List.cons_append,
        read?_pieceDigits_colon (by simp),
        ih _ (List.cons_ne_nil _ _) (Nat.lt_of_succ_lt_succ fits), push_push, left]
      rfl

end Ipv6Draft

/-! ## Addresses -/

theorem ipv6Pieces?_pieceDigits (more : rest ≠ []) :
    ipv6Pieces? (pieceDigits piece ++ rest) =
      (Ipv6Draft.read? 8 {} (pieceDigits piece ++ rest)).bind Ipv6Draft.finish? := by
  unfold ipv6Pieces?
  split
  case h_1 same => exact absurd same pieceDigits_append_ne_colon
  case h_2 same => exact absurd same pieceDigits_append_ne_colon
  case h_3 same => exact absurd (List.append_eq_nil_iff.1 same).2 more
  case h_4 same =>
    have length := congrArg List.length same
    have first : 0 < (pieceDigits piece).length := List.length_pos_iff.2 pieceDigits_ne_nil
    have others := List.length_pos_iff.2 more
    simp only [List.length_append, List.length_singleton] at length
    omega
  case h_5 => rfl

theorem ipv6Pieces?_pieceTexts (all : pieces.length = 8) :
    ipv6Pieces? (pieceTexts pieces).toList = some (pieces.map UInt16.toNat) := by
  have read : Ipv6Draft.read? 8 {} (pieceTexts pieces).toList =
      some (.push {} (pieces.map UInt16.toNat)) :=
    Ipv6Draft.read?_pieceTexts (Nat.le_of_eq all)
  obtain ⟨piece, others, rfl⟩ := List.exists_cons_of_length_eq_add_one all
  obtain ⟨more, text, ne_nil⟩ := toList_pieceTexts_cons piece others
  have others : others ≠ [] := by
    rintro rfl
    simp at all
  rw [text] at read ⊢
  rw [ipv6Pieces?_pieceDigits (ne_nil others), read]
  simpa [Ipv6Draft.finish?, Ipv6Draft.push] using all

theorem finish?_gap (leading trailing : List Nat) (fits : leading.length + trailing.length < 8) :
    Ipv6Draft.finish? { pieces := leading ++ [0] ++ trailing, gap := some (leading.length + 1) } =
      some (leading ++ List.replicate (8 - (leading.length + trailing.length)) 0 ++ trailing) := by
  have front : leading.length + 1 = (leading ++ [0]).length := by simp
  have zeros : 8 - (leading.length + trailing.length) =
      8 - (leading ++ [0] ++ trailing).length + 1 := by
    simp only [List.length_append, List.length_singleton]
    omega
  simp only [Ipv6Draft.finish?]
  rw [front, List.take_left, List.drop_left, zeros, List.replicate_succ]
  simp

theorem ipv6Pieces?_gap {leading trailing : List UInt16}
    (fits : leading.length + trailing.length < 8) :
    ipv6Pieces? ((pieceTexts leading).toList ++ ':' :: ':' :: (pieceTexts trailing).toList) =
      some (leading.map UInt16.toNat ++
        List.replicate (8 - (leading.length + trailing.length)) 0 ++
          trailing.map UInt16.toNat) := by
  have read (draft : Ipv6Draft) : Ipv6Draft.read? (8 - leading.length - 1) draft
      (pieceTexts trailing).toList = some (draft.push (trailing.map UInt16.toNat)) :=
    Ipv6Draft.read?_pieceTexts (by omega)
  have finish := finish?_gap (leading.map UInt16.toNat) (trailing.map UInt16.toNat)
    (by simpa using fits)
  have opened := read
    { pieces := leading.map UInt16.toNat ++ [0], gap := some (leading.length + 1) }
  rw [List.length_map, List.length_map] at finish
  refine Eq.trans ?_ finish
  cases leading with
  | nil =>
    rw [toList_pieceTexts_nil, List.nil_append, ipv6Pieces?]
    exact congrArg (·.bind Ipv6Draft.finish?) opened
  | cons piece others =>
    obtain ⟨more, text, -⟩ := toList_pieceTexts_cons piece others
    have gap := Ipv6Draft.read?_pieceTexts_gap {} (List.cons_ne_nil piece others)
      (show (piece :: others).length < 8 by omega) (pieceTexts trailing).toList
    rw [text, List.append_assoc] at gap ⊢
    rw [ipv6Pieces?_pieceDigits (by simp), gap]
    simp only [Ipv6Draft.open?, Ipv6Draft.push, List.nil_append, List.length_map]
    exact congrArg (·.bind Ipv6Draft.finish?) opened

theorem zeros_at (pieces : List UInt16) (start : Nat) :
    pieces = pieces.take start ++ List.replicate (zeroRun pieces start) 0 ++
      pieces.drop (start + zeroRun pieces start) := by
  have zeros : (pieces.drop start).takeWhile (· == 0) = List.replicate (zeroRun pieces start) 0 :=
    List.eq_replicate_iff.2 ⟨rfl, fun piece h => by simpa using List.mem_takeWhile_imp h⟩
  obtain ⟨rest, split⟩ := List.takeWhile_prefix (l := pieces.drop start) (· == 0)
  have behind : pieces.drop (start + zeroRun pieces start) = rest := by
    rw [← List.drop_drop, ← split, zeroRun, List.drop_left]
  rw [behind, List.append_assoc, ← zeros, split, List.take_append_drop]

theorem ipv6Pieces?_ipv6Text (address : Vector UInt16 8) :
    ipv6Pieces? (ipv6Text address).toList = some (address.toList.map UInt16.toNat) := by
  have all : address.toList.length = 8 := address.length_toList
  simp only [ipv6Text]
  generalize longestZeroRun address.toList = start
  split
  · exact ipv6Pieces?_pieceTexts all
  · rename_i long
    have split := zeros_at address.toList start
    generalize zeroRun address.toList start = run at *
    generalize address.toList.take start = leading at *
    generalize address.toList.drop (start + run) = trailing at *
    rw [split, List.length_append, List.length_append, List.length_replicate] at all
    have missing : 8 - (leading.length + trailing.length) = run := by omega
    have gap : "::".toList = [':', ':'] := rfl
    rw [split, String.toList_append, String.toList_append, gap, List.append_assoc,
      List.cons_append, List.cons_append, List.nil_append, ipv6Pieces?_gap (by omega), missing]
    simp

theorem ipv6Address?_ipv6Text (address : Vector UInt16 8) :
    ipv6Address? (ipv6Text address).toList = some address := by
  have pieces : (address.toList.map UInt16.toNat).map UInt16.ofNat = address.toList := by
    have each : UInt16.ofNat ∘ UInt16.toNat = id := funext fun _ => UInt16.ofNat_toNat
    rw [List.map_map, each, List.map_id]
  have whole : address.toList.toArray = address.toArray := Array.toArray_toList
  rw [ipv6Address?, ipv6Pieces?_ipv6Text]
  simp [pieces, whole]

theorem mem_ipv6Text {address : Vector UInt16 8} {c : Char} (h : c ∈ (ipv6Text address).toList) :
    c = ':' ∨ ∃ d < 16, c = d.digitChar := by
  simp only [ipv6Text] at h
  split at h
  · exact mem_pieceTexts h
  · rw [String.toList_append, String.toList_append, List.mem_append, List.mem_append] at h
    rcases h with (leading | gap) | trailing
    · exact mem_pieceTexts leading
    · exact .inl (by simpa using gap)
    · exact mem_pieceTexts trailing

end ProjectClient.Url

import ProjectClient.Proofs.Text.Split
import ProjectClient.Proofs.Url.Percent
import ProjectClient.Url.Path

/-! Which segments of a path are worked off, and what is left of the others. What is left once stays
when the path is read again. -/
namespace ProjectClient.Url

theorem toLower_eq_or (c : Char) :
    c.toLower = c ∨ 0x41 ≤ c.toNat ∧ c.toNat ≤ 0x5a ∧ c.toLower.toNat = c.toNat + 0x20 := by
  by_cases capital : c.val ≥ 'A'.val ∧ c.val ≤ 'Z'.val
  · have low : 0x41 ≤ c.toNat := UInt32.le_iff_toNat_le.1 capital.1
    have high : c.toNat ≤ 0x5a := UInt32.le_iff_toNat_le.1 capital.2
    have value : c.toLower.toNat = (c.toNat + 0x20) % 2 ^ 32 :=
      (congrArg Char.toNat (dif_pos capital)).trans
        (UInt32.toNat_add c.val ('a'.val - 'A'.val))
    exact .inr ⟨low, high, by omega⟩
  · exact .inl (dif_neg capital)

theorem toLower_eq_of_notLetter {c d : Char} (h : c.toLower = d)
    (notLetter : d.toNat < 0x61 ∨ 0x7a < d.toNat) : c = d := by
  subst h
  rcases toLower_eq_or c with same | ⟨low, high, value⟩
  · exact same.symm
  · omega

theorem eq_of_toLower_eq_e {c : Char} (h : c.toLower = 'e') : c = 'e' ∨ c = 'E' := by
  rcases toLower_eq_or c with same | ⟨_, _, value⟩
  · exact .inl (same.symm.trans h)
  · have capital : c.toNat + 0x20 = 'e'.toNat := by rw [← value, h]
    exact .inr (Char.toNat_inj.1 (Nat.add_right_cancel capital))

namespace Path

variable {segment : String} {text : List Char}

theorem isHere_iff : isHere segment = true ↔
    segment.toList.map Char.toLower = ['.'] ∨
      segment.toList.map Char.toLower = ['%', '2', 'e'] := by
  simp [isHere, ← String.toList_inj]

theorem isUp_iff : isUp segment = true ↔
    segment.toList.map Char.toLower = ['.', '.'] ∨
      segment.toList.map Char.toLower = ['.', '%', '2', 'e'] ∨
      segment.toList.map Char.toLower = ['%', '2', 'e', '.'] ∨
      segment.toList.map Char.toLower = ['%', '2', 'e', '%', '2', 'e'] := by
  simp [isUp, ← String.toList_inj]

theorem percentDecode_of_point {rest : List Char} (h : text.map Char.toLower = '.' :: rest) :
    ∃ tail, tail.map Char.toLower = rest ∧ percentDecode text = 0x2e :: percentDecode tail := by
  obtain ⟨c, tail, rfl, point, lower⟩ := List.map_eq_cons_iff.1 h
  cases toLower_eq_of_notLetter point (by decide)
  exact ⟨tail, lower, percentDecode_cons (by decide) tail⟩

theorem percentDecode_of_encodedPoint {rest : List Char}
    (h : text.map Char.toLower = '%' :: '2' :: 'e' :: rest) :
    ∃ tail, tail.map Char.toLower = rest ∧ percentDecode text = 0x2e :: percentDecode tail := by
  simp only [List.map_eq_cons_iff] at h
  obtain ⟨sign, _, rfl, isSign, high, _, rfl, isTwo, low, tail, rfl, isE, lower⟩ := h
  cases toLower_eq_of_notLetter isSign (by decide)
  cases toLower_eq_of_notLetter isTwo (by decide)
  refine ⟨tail, lower, ?_⟩
  rcases eq_of_toLower_eq_e isE with rfl | rfl <;> rfl

theorem percentDecode_of_isHere (h : isHere segment = true) :
    percentDecode segment.toList = [0x2e] := by
  rcases isHere_iff.1 h with point | encoded
  · obtain ⟨tail, lower, decoded⟩ := percentDecode_of_point point
    cases List.map_eq_nil_iff.1 lower
    exact decoded
  · obtain ⟨tail, lower, decoded⟩ := percentDecode_of_encodedPoint encoded
    cases List.map_eq_nil_iff.1 lower
    exact decoded

theorem percentDecode_of_isUp (h : isUp segment = true) :
    percentDecode segment.toList = [0x2e, 0x2e] := by
  have points : ∃ tail, (tail.map Char.toLower = ['.'] ∨ tail.map Char.toLower = ['%', '2', 'e']) ∧
      percentDecode segment.toList = 0x2e :: percentDecode tail := by
    rcases isUp_iff.1 h with h | h | h | h
    · obtain ⟨tail, lower, decoded⟩ := percentDecode_of_point h
      exact ⟨tail, .inl lower, decoded⟩
    · obtain ⟨tail, lower, decoded⟩ := percentDecode_of_point h
      exact ⟨tail, .inr lower, decoded⟩
    · obtain ⟨tail, lower, decoded⟩ := percentDecode_of_encodedPoint h
      exact ⟨tail, .inl lower, decoded⟩
    · obtain ⟨tail, lower, decoded⟩ := percentDecode_of_encodedPoint h
      exact ⟨tail, .inr lower, decoded⟩
  obtain ⟨tail, here, decoded⟩ := points
  have last : isHere (String.ofList tail) = true := isHere_iff.2 (by simpa using here)
  rw [decoded, show percentDecode tail = [0x2e] by simpa using percentDecode_of_isHere last]

theorem isHere_percentEncode :
    isHere (percentEncode inSegmentSet text) = true ↔ text = ['.'] := by
  constructor
  · intro h
    have bytes := percentDecode_of_isHere h
    rw [percentDecode_percentEncode (by decide)] at bytes
    exact Text.flatMap_utf8_injective bytes
  · rintro rfl
    exact isHere_iff.2 (.inl (by decide))

theorem isUp_percentEncode :
    isUp (percentEncode inSegmentSet text) = true ↔ text = ['.', '.'] := by
  constructor
  · intro h
    have bytes := percentDecode_of_isUp h
    rw [percentDecode_percentEncode (by decide)] at bytes
    exact Text.flatMap_utf8_injective bytes
  · rintro rfl
    exact isUp_iff.2 (.inl (by decide))

theorem isHere_percentEncode_eq_false (h : text ≠ ['.']) :
    isHere (percentEncode inSegmentSet text) = false :=
  Bool.eq_false_iff.2 (mt isHere_percentEncode.1 h)

theorem isUp_percentEncode_eq_false (h : text ≠ ['.', '.']) :
    isUp (percentEncode inSegmentSet text) = false :=
  Bool.eq_false_iff.2 (mt isUp_percentEncode.1 h)

theorem notMem_percentEncode_of_ends {c : Char} (ends : c ∈ ['/', '\\', '?', '#']) :
    c ∉ (percentEncode inSegmentSet text).toList := by
  simp only [List.mem_cons, List.not_mem_nil, or_false] at ends
  rcases ends with rfl | rfl | rfl | rfl <;>
    exact notMem_percentEncode (by decide) (by decide) (by decide)

theorem push_of_ordinary (up : isUp segment = false) (here : isHere segment = false)
    (segments : List String) : push segments segment = segments ++ [segment] := by
  simp [push, up, here]

theorem finish_of_ordinary (up : isUp segment = false) (here : isHere segment = false)
    (segments : List String) : finish segments segment = segments ++ [segment] := by
  simp [finish, up, here]

theorem finish_of_isUp (isUp : isUp segment = true) {name : String}
    (kept : isDriveLetter name = false) (directory : List String) :
    finish (directory ++ [name]) segment = directory ++ [""] := by
  simp [finish, isUp, up, kept]

theorem finish_of_isHere (notUp : isUp segment = false) (here : isHere segment = true)
    (segments : List String) : finish segments segment = segments ++ [""] := by
  simp [finish, notUp, here]

theorem text_cons (segment : String) (rest : List String) :
    Path.text (segment :: rest) = "/" ++ segment ++ Path.text rest := by
  simp [Path.text]

@[simp] theorem text_append (segments more : List String) :
    Path.text (segments ++ more) = Path.text segments ++ Path.text more := by
  simp [Path.text]

structure IsOrdinary (segment : String) : Prop where
  written : ∀ c ∈ segment.toList, inPathSet c = false ∧ isSeparator c = false
  notHere : isHere segment = false
  notUp : isUp segment = false

theorem isOrdinary_empty : IsOrdinary "" :=
  ⟨nofun, by simp [isHere, ← String.toList_inj], by simp [isUp, ← String.toList_inj]⟩

variable {segments : List String}

theorem mem_up {kept : String} (h : kept ∈ up segments) : kept ∈ segments := by
  rw [up] at h
  split at h
  · split at h
    · exact h
    · exact List.dropLast_subset _ h
  · cases h

theorem push_isOrdinary (before : ∀ kept ∈ segments, IsOrdinary kept)
    (written : ∀ c ∈ segment.toList, inPathSet c = false ∧ isSeparator c = false) :
    ∀ kept ∈ push segments segment, IsOrdinary kept := by
  rw [push]
  split
  · exact fun kept h => before kept (mem_up h)
  · split
    · exact before
    · rename_i up here
      exact List.forall_mem_append.2 ⟨before, List.forall_mem_singleton.2
        ⟨written, Bool.eq_false_iff.2 here, Bool.eq_false_iff.2 up⟩⟩

theorem mem_finish {kept : String} (h : kept ∈ finish segments segment) :
    kept ∈ push segments segment ∨ kept = "" := by
  rw [finish] at h
  rw [push]
  split at h
  · rename_i up
    rw [if_pos up]
    simpa using h
  · rename_i notUp
    rw [if_neg notUp]
    split at h
    · rename_i here
      rw [if_pos here]
      simpa using h
    · rename_i notHere
      rw [if_neg notHere]
      exact .inl h

theorem resolve_isOrdinary (before : ∀ kept ∈ segments, IsOrdinary kept) (text : List Char) :
    ∀ kept ∈ resolve segments text, IsOrdinary kept := by
  have sign : inPathSet '%' = false ∧ isSeparator '%' = false := by decide
  have digit {n : Nat} (small : n < 16) :
      inPathSet (upperHexDigit n) = false ∧ isSeparator (upperHexDigit n) = false := by
    revert n
    decide
  have written : ∀ read ∈ (Text.splitOn isSeparator text).map (percentEncode inPathSet),
      ∀ c ∈ read.toList, inPathSet c = false ∧ isSeparator c = false := by
    intro read h c inRead
    obtain ⟨piece, split, rfl⟩ := List.mem_map.1 h
    rcases mem_percentEncode inRead with ⟨inPiece, notIn⟩ | rfl | ⟨n, small, rfl⟩
    · exact ⟨notIn, (Text.forall_mem_of_mem_splitOn split c inPiece).2⟩
    · exact sign
    · exact digit small
  rw [resolve]
  generalize (Text.splitOn isSeparator text).map (percentEncode inPathSet) = read at written
  have pushed (segments read : List String) (before : ∀ kept ∈ segments, IsOrdinary kept)
      (written : ∀ segment ∈ read, ∀ c ∈ segment.toList,
        inPathSet c = false ∧ isSeparator c = false) :
      ∀ kept ∈ read.foldl push segments, IsOrdinary kept := by
    induction read generalizing segments with
    | nil => exact before
    | cons segment read ih =>
      rw [List.forall_mem_cons] at written
      exact ih _ (push_isOrdinary before written.1) written.2
  have directory := pushed segments read.dropLast before
    fun segment h => written segment (List.dropLast_subset _ h)
  have last : ∀ c ∈ (read.getLast?.getD "").toList,
      inPathSet c = false ∧ isSeparator c = false := by
    cases final : read.getLast? with
    | none => nofun
    | some segment => exact written segment (List.mem_of_getLast? final)
  intro kept h
  rcases mem_finish h with pushed | rfl
  · exact push_isOrdinary directory last kept pushed
  · exact isOrdinary_empty

theorem mem_text (ordinary : ∀ kept ∈ segments, IsOrdinary kept) {c : Char}
    (h : c ∈ (Path.text segments).toList) : inPathSet c = false := by
  rw [Path.text, String.toList_join, List.flatMap_map, List.mem_flatMap] at h
  obtain ⟨segment, kept, h⟩ := h
  rw [String.toList_append, List.mem_append] at h
  rcases h with slash | inner
  · rw [List.mem_singleton.1 (show c ∈ ['/'] from slash)]
    rfl
  · exact ((ordinary segment kept).written c inner).1

theorem splitOn_text (ordinary : ∀ kept ∈ segments, IsOrdinary kept) {first : List Char}
    (plain : ∀ c ∈ first, isSeparator c = false) :
    Text.splitOn isSeparator (first ++ (Path.text segments).toList) =
      first :: segments.map String.toList := by
  rw [Text.splitOn_eq_splitOnP]
  induction segments generalizing first with
  | nil =>
    have nothing : (Path.text []).toList = [] := rfl
    rw [nothing, List.append_nil, List.splitOnP_eq_singleton plain]
    rfl
  | cons segment segments ih =>
    rw [List.forall_mem_cons] at ordinary
    have slash : "/".toList = ['/'] := rfl
    rw [text_cons, String.toList_append, String.toList_append, slash, List.append_assoc,
      List.singleton_append, List.splitOnP_append_cons_of_forall_mem plain _ rfl,
      ih ordinary.2 fun c h => (ordinary.1.written c h).2]
    rfl

theorem resolve_ne_nil (segments : List String) (text : List Char) :
    resolve segments text ≠ [] := by
  rw [resolve, finish]
  split
  · simp
  · split <;> simp

theorem foldl_push (ordinary : ∀ kept ∈ segments, IsOrdinary kept) (before : List String) :
    segments.foldl push before = before ++ segments := by
  induction segments generalizing before with
  | nil => simp
  | cons segment segments ih =>
    rw [List.forall_mem_cons] at ordinary
    rw [List.foldl_cons, push_of_ordinary ordinary.1.notUp ordinary.1.notHere, ih ordinary.2,
      List.append_assoc, List.singleton_append]

/-- Nothing about a path changes when it is read again. -/
theorem resolve_text (ordinary : ∀ kept ∈ segments, IsOrdinary kept) (some : segments ≠ []) :
    resolve [] ((Path.text segments).toList.drop 1) = segments := by
  have read : (Text.splitOn isSeparator ((Path.text segments).toList.drop 1)).map
      (percentEncode inPathSet) = segments := by
    have kept : segments.map (percentEncode inPathSet ∘ String.toList) = segments.map id := by
      refine List.map_congr_left fun segment h => ?_
      have plain := fun c h' => ((ordinary segment h).written c h').1
      rw [Function.comp_apply, percentEncode_eq_self plain, String.ofList_toList]
      rfl
    cases segments with
    | nil => contradiction
    | cons first rest =>
      have text : (Path.text (first :: rest)).toList.drop 1 =
          first.toList ++ (Path.text rest).toList := by
        simp [text_cons]
      rw [List.forall_mem_cons] at ordinary
      rw [text, splitOn_text ordinary.2 fun c h => (ordinary.1.written c h).2, ← List.map_cons,
        List.map_map, kept, List.map_id]
  obtain ⟨directory, last, rfl⟩ := (List.eq_nil_or_concat' segments).resolve_left some
  rw [List.forall_mem_append, List.forall_mem_singleton] at ordinary
  rw [resolve, read, List.dropLast_concat, List.getLast?_concat, foldl_push ordinary.1,
    Option.getD_some, finish_of_ordinary ordinary.2.notUp ordinary.2.notHere, List.nil_append]

end Path

end ProjectClient.Url

import ProjectClient.Proofs.Text.Split
import ProjectClient.Proofs.Url.Ipv6
import ProjectClient.Url.Basic

/-! A host is read as it is written, and what is read is in the form in which it stays. -/
namespace ProjectClient.Url

def Idna.withName (idna : Idna) (name : List UInt8) (domain : List Char)
    (foreign : ∃ b ∈ name, 0x80 ≤ b)
    (known : idna.toAscii? (domain.flatMap String.utf8EncodeChar) = some domain) : Idna :=
  have other {ascii : List UInt8} (plain : ∀ b ∈ ascii, b < 0x80) : ascii ≠ name := by
    obtain ⟨b, among, high⟩ := foreign
    rintro rfl
    exact absurd (plain b among) (UInt8.not_lt.2 high)
  { toAscii? text := if text = name then some domain else idna.toAscii? text
    ascii text plain single := by rw [if_neg (other plain), idna.ascii text plain single]
    canonical text result h := by
      split at h
      · exact idna.canonical _ _ (known.trans h)
      · exact idna.canonical _ _ h
    idempotent text result h := by
      have again : idna.toAscii? (result.flatMap String.utf8EncodeChar) = some result := by
        split at h
        · cases h
          exact known
        · exact idna.idempotent _ _ h
      have plain := (idna.canonical _ _ again).lt
      rw [if_neg (other fun b => Text.lt_of_mem_flatMap_utf8 plain), again] }

namespace Host

variable {idna : Idna} {host : Host} {name : List Char} {c : Char}

structure IsDomain (idna : Idna) (name : List Char) : Prop where
  ne_nil : name ≠ []
  stays : idna.toAscii? (name.flatMap String.utf8EncodeChar) = some name
  /-- It would be an address otherwise. -/
  notNumber : ¬ EndsInNumber name

theorem IsDomain.allowed (domain : IsDomain idna name) :
    ∀ c ∈ name, isForbiddenInDomain c = false :=
  fun c among => (idna.canonical _ _ domain.stays c among).1

def IsNormal (idna : Idna) : Host → Prop
  | domain name => IsDomain idna name.toList
  | _ => True

theorem isNormal_of_parse {text : List Char} (h : parse idna text = .ok host) :
    host.IsNormal idna := by
  rw [parse] at h
  split at h
  · rw [ofBrackets] at h
    split at h
    · split at h
      · cases h
        trivial
      · cases h
    · cases h
  · split at h
    · cases h
    rename_i name named
    split at h
    · cases h
    rename_i some
    split at h
    · split at h
      · cases h
        trivial
      · cases h
    · rename_i notNumber
      cases h
      rw [IsNormal, String.toList_ofList]
      exact ⟨some, idna.idempotent _ _ named, notNumber⟩

theorem of_not_forbidden (allowed : isForbiddenInDomain c = false) :
    0x20 < c.toNat ∧ c.toNat < 0x7f ∧
      c ∉ ['%', '#', '/', ':', '<', '>', '?', '@', '[', '\\', ']', '^', '|'] := by
  simpa [isForbiddenInDomain, and_assoc] using allowed

theorem digitChar_stays {d : Nat} (small : d < 16) :
    isForbiddenInDomain d.digitChar = false ∧ d.digitChar.toLower = d.digitChar := by
  revert d
  decide

theorem ipv4Text_stays {address : UInt32} (h : c ∈ (ipv4Text address).toList) :
    isForbiddenInDomain c = false ∧ c.toLower = c := by
  rcases mem_ipv4Text h with rfl | ⟨d, small, rfl⟩
  · exact ⟨rfl, rfl⟩
  · exact digitChar_stays (by omega)

/-- Its labels are of digits alone, so none is encoded. -/
theorem toAscii?_ipv4Text (address : UInt32) :
    idna.toAscii? ((ipv4Text address).toList.flatMap String.utf8EncodeChar) =
      some (ipv4Text address).toList := by
  have canonical : IsCanonical (ipv4Text address).toList := fun c => ipv4Text_stays
  rw [idna.ascii, asciiName?_utf8 canonical]
  · exact fun b => Text.lt_of_mem_flatMap_utf8 canonical.lt
  · rw [lowered_utf8 canonical]
    rintro ⟨label, among, rest, rfl⟩
    have first := (Text.forall_mem_of_mem_splitOn among 'x' List.mem_cons_self).1
    rcases mem_ipv4Text first with point | ⟨d, small, digit⟩
    · exact absurd point (by decide)
    · have isDigit : ∀ d < 10, d.digitChar ≠ 'x' := by decide
      exact isDigit d small digit.symm

theorem ipv4Text_ne_nil (address : UInt32) : (ipv4Text address).toList ≠ [] := by
  intro none
  have parts := congrArg List.length (hostParts_ipv4Text address)
  rw [none] at parts
  cases parts

theorem text_ne_nil (normal : host.IsNormal idna) : host.text.toList ≠ [] := by
  cases host with
  | domain name => exact normal.ne_nil
  | ipv4 address => exact ipv4Text_ne_nil address
  | ipv6 address =>
    rw [text, String.toList_append, String.toList_append]
    exact List.cons_ne_nil _ _

theorem parse_of_name (some : name ≠ [])
    (stays : idna.toAscii? (name.flatMap String.utf8EncodeChar) = .some name) :
    parse idna name = if EndsInNumber name then
      (match ipv4Address? name with
      | .some address => .ok (.ipv4 address)
      | none => .error .invalidIpv4)
    else .ok (.domain (String.ofList name)) := by
  have plain {c : Char} (among : c ∈ name) := of_not_forbidden (idna.canonical _ _ stays c among).1
  have noBracket : name.head? ≠ .some '[' := fun first =>
    (plain (List.mem_of_mem_head? first)).2.2 (by decide)
  have noSign : '%' ∉ name := fun among => (plain among).2.2 (by decide)
  rw [parse, if_neg noBracket, percentDecode_of_notMem noSign, stays]
  exact if_neg some

theorem toList_text_ipv6 (address : Vector UInt16 8) :
    (text (.ipv6 address)).toList = '[' :: (ipv6Text address).toList ++ [']'] := by
  simp [text]

theorem parse_text (normal : host.IsNormal idna) : parse idna host.text.toList = .ok host := by
  cases host with
  | domain name =>
    rw [text, parse_of_name normal.ne_nil normal.stays, if_neg normal.notNumber,
      String.ofList_toList]
  | ipv4 address =>
    rw [text, parse_of_name (ipv4Text_ne_nil address) (toAscii?_ipv4Text address),
      if_pos (endsInNumber_ipv4Text address), ipv4Address?_ipv4Text]
  | ipv6 address =>
    rw [toList_text_ipv6, parse, List.cons_append, List.head?_cons, if_pos rfl, ofBrackets,
      ← List.cons_append, if_pos List.getLast?_concat, List.cons_append, List.drop_succ_cons,
      List.drop_zero, List.dropLast_concat, ipv6Address?_ipv6Text]

theorem mem_text (normal : host.IsNormal idna) (h : c ∈ host.text.toList) :
    isForbiddenInDomain c = false ∨ c ∈ [':', '[', ']'] := by
  cases host with
  | domain name => exact .inl (normal.allowed c h)
  | ipv4 address => exact .inl (ipv4Text_stays h).1
  | ipv6 address =>
    rw [toList_text_ipv6, List.cons_append, List.mem_cons, List.mem_append,
      List.mem_singleton] at h
    rcases h with rfl | inner | rfl
    · exact .inr (by decide)
    · rcases mem_ipv6Text inner with rfl | ⟨d, small, rfl⟩
      · exact .inr (by decide)
      · exact .inl (digitChar_stays small).1
    · exact .inr (by decide)

end Host

/-! ## The host in front of a port -/

theorem splitHost_append {name : List Char} (rest : List Char)
    (plain : ∀ c ∈ name, c ∉ [':', '[']) :
    splitHost false (name ++ rest) =
      (name ++ (splitHost false rest).1, (splitHost false rest).2) := by
  induction name with
  | nil => rfl
  | cons c name ih =>
    rw [List.forall_mem_cons] at plain
    obtain ⟨plain, others⟩ := plain
    simp only [List.mem_cons, List.not_mem_nil, or_false, not_or] at plain
    simp [splitHost, plain, ih others]

theorem splitHost_brackets {inner : List Char} (rest : List Char) (plain : ']' ∉ inner) :
    splitHost true (inner ++ ']' :: rest) =
      (inner ++ ']' :: (splitHost false rest).1, (splitHost false rest).2) := by
  induction inner with
  | nil => simp [splitHost]
  | cons c inner ih =>
    simp only [List.mem_cons, not_or] at plain
    have other : c ≠ ']' := fun same => plain.1 same.symm
    simp [splitHost, other, ih plain.2]

theorem splitHost_text {idna : Idna} {host : Host} (normal : host.IsNormal idna) {port : List Char}
    (colon : ∀ c ∈ port.head?, c = ':') :
    splitHost false (host.text.toList ++ port) = (host.text.toList, port) := by
  have rest : splitHost false port = ([], port) := by
    cases port with
    | nil => rfl
    | cons c port => simp [splitHost, colon c rfl]
  have whole {name : List Char} (allowed : ∀ c ∈ name, Host.isForbiddenInDomain c = false) :
      splitHost false (name ++ port) = (name, port) := by
    have plain : ∀ c ∈ name, c ∉ [':', '['] := by
      intro c h special
      have listed := (Host.of_not_forbidden (allowed c h)).2.2
      exact listed (List.subset_def.1 (by decide) special)
    rw [splitHost_append port plain, rest, List.append_nil]
  cases host with
  | domain name => exact whole normal.allowed
  | ipv4 address => exact whole fun c h => (Host.ipv4Text_stays h).1
  | ipv6 address =>
    have inner : ']' ∉ (ipv6Text address).toList := by
      intro h
      rcases mem_ipv6Text h with colon | ⟨d, small, digit⟩
      · exact absurd colon (by decide)
      · have allowed := (Host.digitChar_stays small).1
        rw [← digit] at allowed
        cases allowed
    rw [Host.toList_text_ipv6, List.append_assoc, List.cons_append, List.singleton_append,
      splitHost]
    simp [splitHost_brackets port inner, rest]

end ProjectClient.Url

import ProjectClient.Text.Split
import ProjectClient.Text.Utf8

/-! Names of domains. A host may be written in any script, and its domain has a name in ASCII by the
rules of UTS 46. Their tables of characters are left to whoever reads URLs: what is fixed here is
what the rules make of a name in ASCII, and what can be relied on of every result. -/
namespace ProjectClient.Url

def Host.isForbiddenInDomain (c : Char) : Bool :=
  c.toNat ≤ 0x20 || 0x7f ≤ c.toNat || "%#/:<>?@[\\]^|".toList.contains c

def lowered (name : List UInt8) : List Char :=
  name.map fun b => (Char.ofNat b.toNat).toLower

def asciiName? (name : List UInt8) : Option (List Char) :=
  if (lowered name).any Host.isForbiddenInDomain then none else some (lowered name)

/-- A label that starts so stands for one in another script. -/
def HasEncodedLabel (name : List Char) : Prop :=
  ∃ label ∈ Text.splitOn (· == '.') name, "xn--".toList <+: label

def IsCanonical (domain : List Char) : Prop :=
  ∀ c ∈ domain, Host.isForbiddenInDomain c = false ∧ c.toLower = c

/-- The rule for the name of a domain in ASCII. No domain has a name to which it assigns none. -/
structure Idna where
  toAscii? : List UInt8 → Option (List Char)
  ascii : ∀ name, (∀ b ∈ name, b < 0x80) → ¬ HasEncodedLabel (lowered name) →
    toAscii? name = asciiName? name
  canonical : ∀ name domain, toAscii? name = some domain → IsCanonical domain
  idempotent : ∀ name domain, toAscii? name = some domain →
    toAscii? (domain.flatMap String.utf8EncodeChar) = some domain

variable {name : List UInt8} {domain : List Char}

theorem IsCanonical.lt (canonical : IsCanonical domain) : ∀ c ∈ domain, c.toNat < 0x80 := by
  intro c among
  have allowed := (canonical c among).1
  simp only [Host.isForbiddenInDomain, Bool.or_eq_false_iff, decide_eq_false_iff_not] at allowed
  omega

theorem lowered_utf8 (canonical : IsCanonical domain) :
    lowered (domain.flatMap String.utf8EncodeChar) = domain := by
  have low := canonical.lt
  induction domain with
  | nil => rfl
  | cons c domain ih =>
    obtain ⟨⟨-, lower⟩, others⟩ := List.forall_mem_cons.1 canonical
    obtain ⟨small, low⟩ := List.forall_mem_cons.1 low
    have byte : (Char.ofNat c.val.toUInt8.toNat).toLower = c := by
      rw [Text.toNat_of_low small, Char.ofNat_toNat, lower]
    rw [List.flatMap_cons, Text.utf8EncodeChar_low small, List.singleton_append]
    exact List.cons_eq_cons.2 ⟨byte, ih others low⟩

theorem isCanonical_of_asciiName? (h : asciiName? name = some domain) : IsCanonical domain := by
  have lower : ∀ n < 256, (Char.ofNat n).toLower.toLower = (Char.ofNat n).toLower := by
    decide +kernel
  obtain ⟨allowed, h⟩ := Option.ite_none_left_eq_some.1 h
  cases h
  intro c among
  have allowedHere : ¬ Host.isForbiddenInDomain c := fun forbidden =>
    allowed (List.any_eq_true.2 ⟨c, among, forbidden⟩)
  obtain ⟨b, -, rfl⟩ := List.mem_map.1 among
  exact ⟨Bool.eq_false_iff.2 allowedHere, lower b.toNat b.toNat_lt⟩

theorem asciiName?_utf8 (canonical : IsCanonical domain) :
    asciiName? (domain.flatMap String.utf8EncodeChar) = some domain := by
  rw [asciiName?, lowered_utf8 canonical, if_neg]
  simpa using fun c among => (canonical c among).1

def Idna.asciiOnly : Idna where
  toAscii? := asciiName?
  ascii _ _ _ := rfl
  canonical _ _ := isCanonical_of_asciiName?
  idempotent _ _ h := asciiName?_utf8 (isCanonical_of_asciiName? h)

end ProjectClient.Url

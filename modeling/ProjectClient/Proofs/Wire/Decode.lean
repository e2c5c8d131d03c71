import ProjectClient.Http.Resource
import ProjectClient.Proofs.Wire.Texts

/-! Decoding a body. The texts of a value are its JSON renderings: keys in any order, any spelling
of the strings, any blanks, unknown members of any kind. All of them are accepted, nothing else is,
and no text that was cut off or added to passes for another. -/
namespace ProjectClient

open Json

/-! ## Texts without blanks -/

def quoted (text : String) : Bytes :=
  inQuotes (text.toList.flatMap String.utf8EncodeChar)

theorem isString_quoted {text : String}
    (plain : ∀ c ∈ text.toList, 0x20 ≤ c.toNat ∧ c ≠ '"' ∧ c ≠ '\\') :
    IsString text (quoted text) := by
  refine ⟨_, ?_, rfl⟩
  generalize text.toList = cs at plain
  induction cs with
  | nil => exact .nil
  | cons c cs ih =>
    rw [List.forall_mem_cons] at plain
    exact .raw plain.1.1 plain.1.2 (ih plain.2)

def furtherPieces (close : UInt8) : List Bytes → Bytes
  | [] => [close]
  | piece :: pieces => [comma] ++ piece ++ furtherPieces close pieces

def pieces (close : UInt8) : List Bytes → Bytes
  | [] => [close]
  | piece :: more => piece ++ furtherPieces close more

theorem isRow_furtherPieces (close : UInt8) (more : List Bytes) :
    IsRow close false more (furtherPieces close more) := by
  induction more with
  | nil => exact .close allBlank_nil
  | cons piece more ih => exact .piece (.comma allBlank_nil allBlank_nil) ih

theorem isRow_pieces (close : UInt8) (all : List Bytes) :
    IsRow close true all (pieces close all) := by
  cases all with
  | nil => exact .close allBlank_nil
  | cons piece more => exact .piece (.first allBlank_nil) (isRow_furtherPieces close more)

def listText (elements : List Bytes) : Bytes :=
  listStart :: pieces listEnd elements

theorem isList_listText (elements : List Bytes) : IsList elements (listText elements) :=
  ⟨_, isRow_pieces listEnd elements, rfl⟩

def objectText (members : List Member) : Bytes :=
  objectStart :: pieces objectEnd (members.map Member.text)

theorem isObject_objectText (members : List Member) : IsObject members (objectText members) :=
  ⟨_, isRow_pieces objectEnd _, rfl⟩

def sampleProject : Bytes :=
  objectText [
    { key := quoted "name", value := inQuotes [backslash, letterU, 0x30, 0x30, 0x65, 0x39] },
    { key := quoted "id", value := quoted "p" }]

theorem isText_sampleProject : Project.IsText { id := "p", name := "é" } sampleProject := by
  have isUnit : IsCodeUnit 0xe9 [0x30, 0x30, 0x65, 0x39] := ⟨0, 0, 14, 9, by decide, rfl⟩
  have name : IsString "é" (inQuotes [backslash, letterU, 0x30, 0x30, 0x65, 0x39]) :=
    ⟨_, .escape (.unit isUnit (by decide)) .nil, rfl⟩
  refine .inl ⟨[("name", _), ("id", _)], isObject_objectText _, ?_, ?_, ?_⟩
  · simp only [List.forall_mem_cons]
    exact ⟨isString_quoted (by simp), isString_quoted (by simp), List.forall_mem_nil _⟩
  · simp only [Project.parts, List.forall_mem_cons]
    exact ⟨.inr ⟨_, rfl, isString_quoted (by simp)⟩, .inr ⟨_, rfl, name⟩, .inl ⟨rfl, trivial⟩,
      .inl ⟨rfl, trivial⟩, List.forall_mem_nil _⟩
  · simp [Project.parts]

def sampleListing : Bytes :=
  objectText [
    { key := quoted "x", value := listText [objectText []] },
    { key := quoted "projects", value := listText [sampleProject] }]

theorem isText_sampleListing :
    Listing.IsText ⟨[{ id := "p", name := "é" }]⟩ sampleListing := by
  have isEmpty : IsValue (objectText []) := .object (isObject_objectText []) nofun nofun
  have unknown : IsValue (listText [objectText []]) :=
    .list (isList_listText _) (List.forall_mem_singleton.2 isEmpty)
  refine .inl ⟨[("x", _), ("projects", _)], isObject_objectText _, ?_, ?_, ?_⟩
  · simp only [List.forall_mem_cons]
    exact ⟨isString_quoted (by simp), isString_quoted (by simp), List.forall_mem_nil _⟩
  · simp only [Listing.parts, List.forall_mem_cons]
    exact ⟨.inr ⟨_, rfl, [sampleProject], isList_listText _, .cons isText_sampleProject .nil⟩,
      List.forall_mem_nil _⟩
  · simpa [Listing.parts] using unknown

section

variable {before t after : Bytes}

/-- Every rendering of a value, with blanks around it, decodes to that value. -/
theorem decode_of_isText (blank : AllBlank before) (blank' : AllBlank after) :
    (∀ listing : Listing, listing.IsText t →
      Wire.listing.decode (before ++ t ++ after) = .ok listing) ∧
    (∀ project : Project, project.IsText t →
      Wire.project.decode (before ++ t ++ after) = .ok project) ∧
    (∀ branch : Branch, branch.IsText t →
      Wire.branch.decode (before ++ t ++ after) = .ok branch) ∧
    (∀ step : Step, step.IsText t → Wire.step.decode (before ++ t ++ after) = .ok step) := by
  refine ⟨fun a isText => Wire.listing_describes.decode_eq_ok.2 ⟨_, _, _, blank, ?_, blank', rfl⟩,
    fun a isText => Wire.project_describes.decode_eq_ok.2 ⟨_, _, _, blank, ?_, blank', rfl⟩,
    fun a isText => Wire.branch_describes.decode_eq_ok.2 ⟨_, _, _, blank, ?_, blank', rfl⟩,
    fun a isText => Wire.step_describes.decode_eq_ok.2 ⟨_, _, _, blank, ?_, blank', rfl⟩⟩
  · rwa [Wire.listing_parts]
  · rwa [Wire.project_parts]
  · rwa [Wire.branch_parts]
  · rwa [Wire.step_parts]

end

theorem decode_of_isText_sampleListing :
    Wire.listing.decode ([0x20] ++ sampleListing ++ [0x0a]) =
      .ok ⟨[{ id := "p", name := "é" }]⟩ :=
  (decode_of_isText (t := sampleListing) (by simp [AllBlank, isBlank])
    (by simp [AllBlank, isBlank])).1 _ isText_sampleListing

/-- Only a rendering of a listing decodes to it, and it renders no other. -/
theorem isText_of_decode {body : Bytes} {listing : Listing}
    (h : Wire.listing.decode body = .ok listing) :
    ∃ before t after, AllBlank before ∧ AllBlank after ∧ body = before ++ t ++ after ∧
      IsValue t ∧ listing.IsText t ∧ ∀ other : Listing, other.IsText t → other = listing := by
  obtain ⟨before, t, after, blank, isRecord, blank', rfl⟩ := Wire.listing_describes.decode_eq_ok.1 h
  have isValue := Wire.listing_describes.isValue_of_isRecord isRecord
  rw [Wire.listing_parts] at isRecord
  refine ⟨before, t, after, blank, blank', rfl, isValue, isRecord, fun other isText => ?_⟩
  have again : Wire.listing.decode (before ++ t ++ after) = .ok other := by
    refine Wire.listing_describes.decode_eq_ok.2 ⟨before, t, after, blank, ?_, blank', rfl⟩
    rwa [Wire.listing_parts]
  exact Except.ok.inj (again.symm.trans h)

theorem decode_sampleListing :
    Wire.listing.decode sampleListing = .ok ⟨[{ id := "p", name := "é" }]⟩ := by
  refine Wire.listing_describes.decode_eq_ok.2
    ⟨[], sampleListing, [], allBlank_nil, ?_, allBlank_nil, by simp⟩
  rw [Wire.listing_parts]
  exact isText_sampleListing

theorem isText_of_decode_sampleListing :
    ∃ before t after, AllBlank before ∧ AllBlank after ∧ sampleListing = before ++ t ++ after ∧
      IsValue t ∧ Listing.IsText ⟨[{ id := "p", name := "é" }]⟩ t ∧
      ∀ other : Listing, other.IsText t → other = ⟨[{ id := "p", name := "é" }]⟩ :=
  isText_of_decode decode_sampleListing

/-! ## Bodies that were cut off or added to -/

/-- A text that decodes does so up to its last bracket and with nothing but blanks behind it. -/
def Json.Shape.IsSealed {δ α : Type} (shape : Shape δ α) : Prop :=
  ∀ body a, shape.decode body = .ok a →
    (∃ inner close after, body = inner ++ close :: after ∧ (close = listEnd ∨ close = objectEnd) ∧
      AllBlank after ∧ ∀ cut, cut <+: inner → ∃ e, shape.decode cut = .error e) ∧
    (∀ more, ¬ AllBlank more → ∃ e, shape.decode (body ++ more) = .error e) ∧
    ∀ more, AllBlank more → shape.decode (body ++ more) = .ok a

theorem Json.IsRow.last {close : UInt8} {isFirst : Bool} {pieces : List Bytes} {row : Bytes}
    (isRow : IsRow close isFirst pieces row) : ∃ inner, row = inner ++ [close] := by
  induction isRow with
  | close => exact ⟨_, rfl⟩
  | piece _ _ ih =>
    obtain ⟨inner, rfl⟩ := ih
    exact ⟨_, (List.append_assoc ..).symm⟩

theorem Json.IsRecord.last {parts : List Part} {t : Bytes} (isRecord : IsRecord parts t) :
    ∃ inner close, t = inner ++ [close] ∧ (close = listEnd ∨ close = objectEnd) := by
  obtain ⟨_, ⟨row, isRow, rfl⟩, -⟩ | ⟨_, ⟨row, isRow, rfl⟩, -⟩ := isRecord
  · obtain ⟨inner, rfl⟩ := isRow.last
    exact ⟨objectStart :: inner, objectEnd, rfl, .inr rfl⟩
  · obtain ⟨inner, rfl⟩ := isRow.last
    exact ⟨listStart :: inner, listEnd, rfl, .inl rfl⟩

theorem Json.Describes.isSealed {δ α : Type} {slots : List (Slot δ α)} {shape : Shape δ α}
    (describes : Describes slots shape) : shape.IsSealed := by
  have refused {body : Bytes} (not : ∀ a, shape.decode body ≠ .ok a) :
      ∃ e, shape.decode body = .error e := by
    cases h : shape.decode body with
    | error e => exact ⟨e, rfl⟩
    | ok a => exact absurd h (not a)
  intro body a h
  obtain ⟨before, t, after, blank, isRecord, blank', rfl⟩ := describes.decode_eq_ok.1 h
  -- Whatever follows the record, reading stops right behind it.
  have reads (rest : Bytes) : shape.read (before ++ (t ++ rest)) = .ok (a, rest) :=
    describes.read_eq_ok.2 ⟨before, t, blank, isRecord, rfl⟩
  refine ⟨?_, fun more notBlank => refused fun other h => ?_, fun more blank'' => ?_⟩
  · obtain ⟨inner, close, rfl, closes⟩ := isRecord.last
    refine ⟨before ++ inner, close, after, by simp, closes, blank', ?_⟩
    rintro cut ⟨missing, same⟩
    refine refused fun other h => ?_
    obtain ⟨before', t', after', blank'', isRecord', -, rfl⟩ := describes.decode_eq_ok.1 h
    have early : shape.read (before ++ (inner ++ [close] ++ after)) =
        .ok (other, after' ++ (missing ++ close :: after)) := by
      refine describes.read_eq_ok.2 ⟨before', t', blank'', isRecord', ?_⟩
      simpa using congrArg (· ++ close :: after) same.symm
    have rests := (Prod.mk.inj (Except.ok.inj ((reads after).symm.trans early))).2
    have lengths := congrArg List.length rests
    simp only [List.length_append, List.length_cons] at lengths
    omega
  · obtain ⟨rest, read, blankRest⟩ := Reader.readAll_eq_ok.1 h
    have late := reads (after ++ more)
    rw [← List.append_assoc, ← List.append_assoc] at late
    have rests := (Prod.mk.inj (Except.ok.inj (read.symm.trans late))).2
    rw [rests, allBlank_append] at blankRest
    exact notBlank blankRest.2
  · exact describes.decode_eq_ok.2 ⟨before, t, after ++ more, blank, isRecord,
      allBlank_append.2 ⟨blank', blank''⟩, by simp⟩

section

variable {status : Nat} {body : Bytes}

theorem Http.listed_of_isSuccess (success : 200 ≤ status ∧ status < 300) :
    listed (.ok ⟨status, .ok body⟩) = match Wire.listing.decode body with
      | .ok listing => .ok listing.projects
      | .error e => .error (.decode e.message) := by
  have arrived : accepted (.ok ⟨status, .ok body⟩) = .ok ⟨status, .ok body⟩ := if_pos success
  rw [listed, arrived]
  rfl

theorem Http.listed_eq_ok {projects : List Project} :
    listed (.ok ⟨status, .ok body⟩) = .ok projects ↔ (200 ≤ status ∧ status < 300) ∧
      ∃ listing, Wire.listing.decode body = .ok listing ∧ listing.projects = projects := by
  by_cases success : 200 ≤ status ∧ status < 300
  · rw [listed_of_isSuccess success]
    cases Wire.listing.decode body with
    | ok listing => simp [success]
    | error => simp
  · have refused : accepted (.ok ⟨status, .ok body⟩) = .error (.http status) := if_neg success
    rw [listed, refused]
    exact iff_of_false nofun fun h => success h.1

end

/-- No body passes for another when it is cut off before its last bracket or when anything but
blanks is added to it. -/
theorem bodies_sealed :
    Wire.listing.IsSealed ∧ Wire.project.IsSealed ∧ Wire.branch.IsSealed ∧ Wire.step.IsSealed ∧
      Wire.creation.IsSealed ∧ Wire.settings.IsSealed ∧
    ∀ status body projects, Http.listed (.ok ⟨status, .ok body⟩) = .ok projects →
      (∃ inner close after, body = inner ++ close :: after ∧
        (close = listEnd ∨ close = objectEnd) ∧ AllBlank after ∧ ∀ cut, cut <+: inner →
          ∃ text, Http.listed (.ok ⟨status, .ok cut⟩) = .error (.decode text)) ∧
      ∀ more, ¬ AllBlank more →
        ∃ text, Http.listed (.ok ⟨status, .ok (body ++ more)⟩) = .error (.decode text) := by
  refine ⟨Wire.listing_describes.isSealed, Wire.project_describes.isSealed,
    Wire.branch_describes.isSealed, Wire.step_describes.isSealed, Wire.creation_describes.isSealed,
    Wire.settings_describes.isSealed, fun status body projects listed => ?_⟩
  obtain ⟨success, listing, decoded, -⟩ := Http.listed_eq_ok.1 listed
  obtain ⟨⟨inner, close, after, split, closes, blank, cuts⟩, paddings, -⟩ :=
    Wire.listing_describes.isSealed body listing decoded
  have refuses {other : Bytes} : (∃ e, Wire.listing.decode other = .error e) →
      ∃ text, Http.listed (.ok ⟨status, .ok other⟩) = .error (.decode text) :=
    fun ⟨e, refused⟩ => ⟨e.message, by rw [Http.listed_of_isSuccess success, refused]⟩
  exact ⟨⟨inner, close, after, split, closes, blank, fun cut before => refuses (cuts cut before)⟩,
    fun more visible => refuses (paddings more visible)⟩

theorem bodies_sealed_sampleListing :
    (∃ inner close after, sampleListing = inner ++ close :: after ∧
      (close = listEnd ∨ close = objectEnd) ∧ AllBlank after ∧
      ∀ cut, cut <+: inner → ∃ e, Wire.listing.decode cut = .error e) ∧
    Http.listed (.ok ⟨200, .ok sampleListing⟩) = .ok [{ id := "p", name := "é" }] ∧
    ∃ text, Http.listed (.ok ⟨200, .ok (sampleListing ++ [0x5d])⟩) = .error (.decode text) := by
  have listed : Http.listed (.ok ⟨200, .ok sampleListing⟩) = .ok [{ id := "p", name := "é" }] :=
    Http.listed_eq_ok.2 ⟨by decide, _, decode_sampleListing, rfl⟩
  obtain ⟨sealed, -, -, -, -, -, lists⟩ := bodies_sealed
  have padded : ¬ AllBlank [0x5d] := by simp [AllBlank, isBlank]
  exact ⟨(sealed _ _ decode_sampleListing).1, listed, (lists 200 _ _ listed).2 [0x5d] padded⟩

end ProjectClient

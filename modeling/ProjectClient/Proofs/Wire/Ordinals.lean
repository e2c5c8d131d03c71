import ProjectClient.Proofs.Json.Ordinals
import ProjectClient.Proofs.Json.Unambiguous
import ProjectClient.Proofs.Wire.Decode
import ProjectClient.Proofs.Wire.Encode

/-! The ordinals of the steps in a body. With any values in their places, a body decodes if and only
if each of them is an exact integer, and what is decoded is written with the same ordinals. -/
namespace ProjectClient

open Json
open Text (utf8)

/-! ## Records with ordinals as they are written -/

namespace Unread

structure Step where
  token : Bytes
  name : String

structure Branch where
  id : String
  name : String
  steps : List Step

structure Project where
  id : String
  name : String
  updatedAt : Option String
  branches : List Branch

structure Listing where
  projects : List Project

def Step.parts (step : Step) : List Part := [
  ⟨"step", False, fun t => IsValue t ∧ t = step.token⟩,
  ⟨"name", False, IsString step.name⟩]

def Step.IsText (step : Step) : Bytes → Prop :=
  IsRecord step.parts

def Branch.parts (branch : Branch) : List Part := [
  ⟨"id", False, IsString branch.id⟩,
  ⟨"name", False, IsString branch.name⟩,
  ⟨"steps", branch.steps = [], IsListOf Step.IsText branch.steps⟩]

def Branch.IsText (branch : Branch) : Bytes → Prop :=
  IsRecord branch.parts

def Project.parts (project : Project) : List Part := [
  ⟨"id", False, IsString project.id⟩,
  ⟨"name", False, IsString project.name⟩,
  ⟨"updated_at", project.updatedAt = none, IsOptional project.updatedAt⟩,
  ⟨"branches", project.branches = [], IsListOf Branch.IsText project.branches⟩]

def Project.IsText (project : Project) : Bytes → Prop :=
  IsRecord project.parts

def Listing.parts (listing : Listing) : List Part := [
  ⟨"projects", False, IsListOf Project.IsText listing.projects⟩]

def Listing.IsText (listing : Listing) : Bytes → Prop :=
  IsRecord listing.parts

def Step.tokens (step : Step) : List Bytes := [step.token]

def Branch.tokens (branch : Branch) : List Bytes := branch.steps.flatMap Step.tokens

def Project.tokens (project : Project) : List Bytes := project.branches.flatMap Branch.tokens

def Listing.tokens (listing : Listing) : List Bytes := listing.projects.flatMap Project.tokens

def Step.value (step : Step) : ProjectClient.Step where
  ordinal := Int64.ofInt (integerValue step.token)
  name := step.name

def Branch.value (branch : Branch) : ProjectClient.Branch where
  id := branch.id
  name := branch.name
  steps := branch.steps.map Step.value

def Project.value (project : Project) : ProjectClient.Project where
  id := project.id
  name := project.name
  updatedAt := project.updatedAt
  branches := project.branches.map Branch.value

def Listing.value (listing : Listing) : ProjectClient.Listing where
  projects := listing.projects.map Project.value

end Unread

/-! ## Texts of both kinds -/

/-- How texts with any values in the places of the ordinals compare with the texts of records. A
text of both kinds has exact ordinals, and where they are exact all texts are of both kinds. -/
structure Settles {ρ α : Type} (IsRaw : ρ → Bytes → Prop) (tokens : ρ → List Bytes)
    (value : ρ → α) (IsText : α → Bytes → Prop) : Prop where
  isValue {r : ρ} {t : Bytes} : IsRaw r t → IsValue t
  isValue' {a : α} {t : Bytes} : IsText a t → IsValue t
  sound {r : ρ} {a : α} {t : Bytes} : IsRaw r t → IsText a t →
    (∀ token ∈ tokens r, IsExact token) ∧ a = value r
  same {r : ρ} : (∀ token ∈ tokens r, IsExact token) → IsRaw r = IsText (value r)

section

variable {ρ α : Type} {IsRaw : ρ → Bytes → Prop} {tokens : ρ → List Bytes} {value : ρ → α}
  {IsText : α → Bytes → Prop} {rs : List ρ} {as : List α}

theorem Json.Reads.settles {reader : Reader α} (reads : Reads reader IsText) :
    Settles IsText (fun _ => []) id IsText where
  isValue := reads.isValue
  isValue' := reads.isValue
  sound isText isText' := ⟨nofun, reads.unique isText' isText⟩
  same _ := rfl

theorem settles_ordinal :
    Settles (fun token t => IsValue t ∧ t = token) ([·])
      (fun token => Int64.ofInt (integerValue token)) IsOrdinal where
  isValue := And.left
  isValue' := Reader.reads_ordinal.isValue
  sound := by
    rintro token n _ ⟨-, rfl⟩ isOrdinal
    rw [List.forall_mem_singleton]
    exact isOrdinal_iff.1 isOrdinal
  same {token} exact := by
    rw [List.forall_mem_singleton] at exact
    funext t
    refine propext ⟨?_, fun isOrdinal => ?_⟩
    · rintro ⟨-, rfl⟩
      exact exact.isOrdinal
    · exact ⟨Reader.reads_ordinal.isValue isOrdinal, isOrdinal.unique exact.isOrdinal⟩

namespace Settles

variable (settles : Settles IsRaw tokens value IsText)

include settles

theorem sound_forall₂ {es : List Bytes} (raw : List.Forall₂ IsRaw rs es)
    (texts : List.Forall₂ IsText as es) :
    (∀ token ∈ rs.flatMap tokens, IsExact token) ∧ as = rs.map value := by
  induction raw generalizing as with
  | nil =>
    cases texts
    exact ⟨nofun, rfl⟩
  | cons isRaw _ ih =>
    cases texts with
    | cons isText texts =>
      obtain ⟨exact, rfl⟩ := settles.sound isRaw isText
      obtain ⟨exact', rfl⟩ := ih texts
      rw [List.flatMap_cons]
      exact ⟨List.forall_mem_append.2 ⟨exact, exact'⟩, rfl⟩

theorem same_forall₂ (exact : ∀ token ∈ rs.flatMap tokens, IsExact token) {es : List Bytes} :
    List.Forall₂ IsRaw rs es ↔ List.Forall₂ IsText (rs.map value) es := by
  induction rs generalizing es with
  | nil => rw [List.map_nil, List.forall₂_nil_left_iff, List.forall₂_nil_left_iff]
  | cons r rs ih =>
    rw [List.flatMap_cons, List.forall_mem_append] at exact
    simp only [List.map_cons, List.forall₂_cons_left_iff, settles.same exact.1, ih exact.2]

theorem list :
    Settles (IsListOf IsRaw) (·.flatMap tokens) (·.map value) (IsListOf IsText) where
  isValue isRaw := isRaw.isValue fun _ _ => settles.isValue
  isValue' isText := isText.isValue fun _ _ => settles.isValue'
  sound := by
    rintro rs as t ⟨es, isList, raw⟩ ⟨es', isList', texts⟩
    have values := isValue_of_forall₂ raw fun _ _ => settles.isValue
    have values' := isValue_of_forall₂ texts fun _ _ => settles.isValue'
    obtain rfl := isList.unique isList' values values'
    exact settles.sound_forall₂ raw texts
  same exact := by
    funext t
    simp only [IsListOf, settles.same_forall₂ exact]

theorem agrees {r : ρ} {a : α} {key key' : String} {mayMiss mayMiss' : Prop}
    (agrees : Part.Agrees ⟨key, mayMiss, IsRaw r⟩ ⟨key', mayMiss', IsText a⟩)
    (missing : mayMiss → mayMiss' → (∀ token ∈ tokens r, IsExact token) ∧ a = value r) :
    (∀ token ∈ tokens r, IsExact token) ∧ a = value r := by
  obtain ⟨mayMiss, mayMiss'⟩ | ⟨t, isRaw, isText⟩ := agrees
  · exact missing mayMiss mayMiss'
  · exact settles.sound isRaw isText

theorem agrees_required {r : ρ} {a : α} {key key' : String} {mayMiss' : Prop}
    (agrees : Part.Agrees ⟨key, False, IsRaw r⟩ ⟨key', mayMiss', IsText a⟩) :
    (∀ token ∈ tokens r, IsExact token) ∧ a = value r :=
  settles.agrees agrees False.elim

theorem agrees_list {key key' : String}
    (agrees : Part.Agrees ⟨key, rs = [], IsListOf IsRaw rs⟩ ⟨key', as = [], IsListOf IsText as⟩) :
    (∀ token ∈ rs.flatMap tokens, IsExact token) ∧ as = rs.map value := by
  refine settles.list.agrees agrees ?_
  rintro rfl rfl
  exact ⟨nofun, rfl⟩

end Settles

end

/-! ## Records -/

open Reader (reads_text reads_optionalText)

theorem Unread.Step.values (raw : Unread.Step) :
    ∀ part ∈ raw.parts, ∀ t, part.Text t → IsValue t := by
  simp only [parts, List.forall_mem_cons]
  exact ⟨fun _ => settles_ordinal.isValue, fun _ => reads_text.isValue, nofun⟩

theorem settles_step :
    Settles Unread.Step.IsText Unread.Step.tokens Unread.Step.value Step.IsText where
  isValue raw := raw.isValue (Unread.Step.values _)
  isValue' := Wire.reads_step.isValue
  sound {raw step t} isRaw isText := by
    have agrees := Wire.step_describes.agrees (Wire.step_parts step) isRaw isText rfl raw.values
    simp only [Unread.Step.parts, Step.parts, List.forall₂_cons] at agrees
    obtain ⟨token, name, -⟩ := agrees
    obtain ⟨exact, ordinal⟩ := settles_ordinal.agrees_required token
    obtain ⟨-, name⟩ := reads_text.settles.agrees_required name
    obtain ⟨ordinal', name'⟩ := step
    cases ordinal
    cases name
    exact ⟨exact, rfl⟩
  same exact := by
    rw [Unread.Step.IsText, Step.IsText, Unread.Step.parts, Step.parts, settles_ordinal.same exact]
    rfl

theorem Unread.Branch.values (raw : Unread.Branch) :
    ∀ part ∈ raw.parts, ∀ t, part.Text t → IsValue t := by
  simp only [parts, List.forall_mem_cons]
  exact ⟨fun _ => reads_text.isValue, fun _ => reads_text.isValue,
    fun _ => settles_step.list.isValue, nofun⟩

theorem settles_branch :
    Settles Unread.Branch.IsText Unread.Branch.tokens Unread.Branch.value Branch.IsText where
  isValue raw := raw.isValue (Unread.Branch.values _)
  isValue' := Wire.reads_branch.isValue
  sound {raw branch t} isRaw isText := by
    have agrees := Wire.branch_describes.agrees (Wire.branch_parts branch) isRaw isText rfl
      raw.values
    simp only [Unread.Branch.parts, Branch.parts, List.forall₂_cons] at agrees
    obtain ⟨id, name, steps, -⟩ := agrees
    obtain ⟨-, id⟩ := reads_text.settles.agrees_required id
    obtain ⟨-, name⟩ := reads_text.settles.agrees_required name
    obtain ⟨exact, steps⟩ := settles_step.agrees_list steps
    obtain ⟨id', name', steps'⟩ := branch
    cases id
    cases name
    cases steps
    exact ⟨exact, rfl⟩
  same exact := by
    rw [Unread.Branch.IsText, Branch.IsText, Unread.Branch.parts, Branch.parts,
      settles_step.list.same exact]
    simp [Unread.Branch.value]

theorem Unread.Project.values (raw : Unread.Project) :
    ∀ part ∈ raw.parts, ∀ t, part.Text t → IsValue t := by
  simp only [parts, List.forall_mem_cons]
  exact ⟨fun _ => reads_text.isValue, fun _ => reads_text.isValue,
    fun _ => reads_optionalText.isValue, fun _ => settles_branch.list.isValue, nofun⟩

theorem settles_project :
    Settles Unread.Project.IsText Unread.Project.tokens Unread.Project.value Project.IsText where
  isValue raw := raw.isValue (Unread.Project.values _)
  isValue' := Wire.reads_project.isValue
  sound {raw project t} isRaw isText := by
    have agrees := Wire.project_describes.agrees (Wire.project_parts project) isRaw isText rfl
      raw.values
    simp only [Unread.Project.parts, Project.parts, List.forall₂_cons] at agrees
    obtain ⟨id, name, updatedAt, branches, -⟩ := agrees
    obtain ⟨-, id⟩ := reads_text.settles.agrees_required id
    obtain ⟨-, name⟩ := reads_text.settles.agrees_required name
    obtain ⟨-, updatedAt⟩ := reads_optionalText.settles.agrees updatedAt
      fun missing missing' => ⟨List.forall_mem_nil _, missing'.trans missing.symm⟩
    obtain ⟨exact, branches⟩ := settles_branch.agrees_list branches
    obtain ⟨id', name', updatedAt', branches'⟩ := project
    cases id
    cases name
    cases updatedAt
    cases branches
    exact ⟨exact, rfl⟩
  same {raw} exact := by
    rw [Unread.Project.IsText, Project.IsText, Unread.Project.parts, Project.parts,
      settles_branch.list.same exact]
    simp [Unread.Project.value]

theorem Unread.Listing.values (raw : Unread.Listing) :
    ∀ part ∈ raw.parts, ∀ t, part.Text t → IsValue t := by
  simp only [parts, List.forall_mem_cons]
  exact ⟨fun _ => settles_project.list.isValue, nofun⟩

theorem settles_listing :
    Settles Unread.Listing.IsText Unread.Listing.tokens Unread.Listing.value Listing.IsText where
  isValue raw := raw.isValue (Unread.Listing.values _)
  isValue' {listing _} isText := Wire.listing_describes.isValue_of_isRecord (a := listing)
    (by rwa [Wire.listing_parts])
  sound {raw listing t} isRaw isText := by
    have agrees := Wire.listing_describes.agrees (Wire.listing_parts listing) isRaw isText rfl
      raw.values
    simp only [Unread.Listing.parts, Listing.parts, List.forall₂_cons] at agrees
    obtain ⟨projects, -⟩ := agrees
    obtain ⟨exact, projects⟩ := settles_project.list.agrees_required projects
    obtain ⟨projects'⟩ := listing
    cases projects
    exact ⟨exact, rfl⟩
  same {raw} exact := by
    rw [Unread.Listing.IsText, Listing.IsText, Unread.Listing.parts, Listing.parts,
      settles_project.list.same exact]
    rfl

/-! ## Bodies -/

/-- A body with any values in the places of the ordinals decodes if and only if each of them is
exact. It then decodes to the value with these ordinals, and what is written for that has the very
same ones. -/
def Json.Shape.KeepsOrdinals {δ α ρ : Type} (shape : Shape δ α) (IsRaw : ρ → Bytes → Prop)
    (tokens : ρ → List Bytes) (value : ρ → α) (json : α → String) : Prop :=
  ∀ raw before t after, AllBlank before → AllBlank after → IsRaw raw t →
    (∀ a, shape.decode (before ++ t ++ after) = .ok a ↔
      (∀ token ∈ tokens raw, IsExact token) ∧ a = value raw) ∧
    ((∀ token ∈ tokens raw, IsExact token) → IsRaw raw (utf8 (json (value raw))))

theorem Settles.keepsOrdinals {δ α ρ : Type} {slots : List (Slot δ α)} {shape : Shape δ α}
    {IsRaw : ρ → Bytes → Prop} {tokens : ρ → List Bytes} {value : ρ → α}
    {IsText : α → Bytes → Prop} {json : α → String} (settles : Settles IsRaw tokens value IsText)
    (describes : Describes slots shape)
    (isText_iff : ∀ a t, IsRecord (slots.map (·.part a)) t ↔ IsText a t)
    (written : ∀ a, IsText a (utf8 (json a))) :
    shape.KeepsOrdinals IsRaw tokens value json := by
  intro raw before t after blank blank' isRaw
  refine ⟨fun a => ?_, fun exact => settles.same exact ▸ written (value raw)⟩
  rw [describes.decode_iff_isRecord blank blank' (settles.isValue isRaw), isText_iff]
  constructor
  · exact settles.sound isRaw
  · rintro ⟨exact, rfl⟩
    exact settles.same exact ▸ isRaw

/-- Whatever numbers or other values stand in the places of the ordinals, at the top or deep in a
list of projects, and however long they are, they are taken as they are or the body is refused. An
ordinal has the value of its number and is written as that was. -/
theorem ordinals_exact_or_refused :
    Wire.step.KeepsOrdinals Unread.Step.IsText Unread.Step.tokens Unread.Step.value Step.json ∧
    Wire.branch.KeepsOrdinals Unread.Branch.IsText Unread.Branch.tokens Unread.Branch.value
      Branch.json ∧
    Wire.project.KeepsOrdinals Unread.Project.IsText Unread.Project.tokens Unread.Project.value
      Project.json ∧
    Wire.listing.KeepsOrdinals Unread.Listing.IsText Unread.Listing.tokens Unread.Listing.value
      Listing.json ∧
    ∀ token, IsExact token →
      (Int64.ofInt (integerValue token)).toInt = integerValue token ∧
      utf8 (toString (Int64.ofInt (integerValue token))) = token ∧
      utf8 (toString (integerValue token)) = token := by
  refine ⟨settles_step.keepsOrdinals Wire.step_describes (fun step t => ?_) Step.isText_json,
    settles_branch.keepsOrdinals Wire.branch_describes (fun branch t => ?_) Branch.isText_json,
    settles_project.keepsOrdinals Wire.project_describes (fun project t => ?_)
      Project.isText_json,
    settles_listing.keepsOrdinals Wire.listing_describes (fun listing t => ?_)
      Listing.isText_json, fun token exact => ⟨exact.toInt_eq, ?_, exact.utf8_toString⟩⟩
  · rw [Wire.step_parts, Step.IsText]
  · rw [Wire.branch_parts, Branch.IsText]
  · rw [Wire.project_parts, Project.IsText]
  · rw [Wire.listing_parts, Listing.IsText]
  · exact (isOrdinal_toString _).unique exact.isOrdinal

def plainMember (field : String × Bytes) : String × Member :=
  (field.1, {
    key := quoted field.1, value := field.2, before := [], after := []
    blank := allBlank_nil, blank' := allBlank_nil })

def plainObject (fields : List (String × Bytes)) : Bytes :=
  objectText ((fields.map plainMember).map (·.2))

theorem isRecord_plainObject {parts : List Part} {fields : List (String × Bytes)}
    (plain : ∀ field ∈ fields, ∀ c ∈ field.1.toList, 0x20 ≤ c.toNat ∧ c ≠ '"' ∧ c ≠ '\\')
    (known : ∀ field ∈ fields, field.1 ∈ parts.map (·.key))
    (given : ∀ part ∈ parts, part.IsGivenBy (fields.map plainMember)) :
    IsRecord parts (plainObject fields) :=
  .inl ⟨fields.map plainMember, isObject_objectText _,
    List.forall_mem_map.2 fun field mem => isString_quoted (plain field mem), given,
    List.forall_mem_map.2 fun field mem other => absurd (known field mem) other⟩

def oneStep (token : Bytes) : Unread.Listing where
  projects := [{
    id := "p", name := "a", updatedAt := none
    branches := [{ id := "b", name := "m", steps := [{ token, name := "s" }] }] }]

def oneStepText (token : Bytes) : Bytes :=
  let step := plainObject [("name", quoted "s"), ("step", token)]
  let branch := listText [quoted "b", quoted "m", listText [step]]
  let project := plainObject [("id", quoted "p"), ("name", quoted "a"),
    ("branches", listText [branch])]
  plainObject [("projects", listText [project])]

theorem isText_oneStepText {token : Bytes} (isValue : IsValue token) :
    (oneStep token).IsText (oneStepText token) := by
  have step : Unread.Step.IsText { token, name := "s" }
      (plainObject [("name", quoted "s"), ("step", token)]) := by
    refine isRecord_plainObject (by simp) (by simp [Unread.Step.parts]) ?_
    simp only [Unread.Step.parts, List.forall_mem_cons]
    exact ⟨.inr ⟨_, rfl, isValue, rfl⟩, .inr ⟨_, rfl, isString_quoted (by simp)⟩, nofun⟩
  have branch : Unread.Branch.IsText { id := "b", name := "m", steps := [{ token, name := "s" }] }
      (listText [quoted "b", quoted "m",
        listText [plainObject [("name", quoted "s"), ("step", token)]]]) :=
    .inr ⟨_, isList_listText _, .given (isString_quoted (by simp)) (.given
      (isString_quoted (by simp)) (.given ⟨_, isList_listText _, .cons step .nil⟩ .nil))⟩
  refine isRecord_plainObject (by simp) (by simp [Unread.Listing.parts]) ?_
  refine List.forall_mem_singleton.2 (.inr ⟨_, rfl, _, isList_listText _, .cons ?_ .nil⟩)
  refine isRecord_plainObject (by simp) (by simp [Unread.Project.parts]) ?_
  simp only [Unread.Project.parts, List.forall_mem_cons]
  exact ⟨.inr ⟨_, rfl, isString_quoted (by simp)⟩, .inr ⟨_, rfl, isString_quoted (by simp)⟩,
    .inl ⟨rfl, trivial⟩, .inr ⟨_, rfl, _, isList_listText _, .cons branch .nil⟩, nofun⟩

/-- The lowest ordinal is taken, and its magnitude is refused. -/
theorem ordinals_exact_or_refused_at_limit :
    let magnitude : Bytes := [0x39, 0x32, 0x32, 0x33, 0x33, 0x37, 0x32, 0x30, 0x33, 0x36, 0x38,
      0x35, 0x34, 0x37, 0x37, 0x35, 0x38, 0x30, 0x38]
    integerValue magnitude = 0x8000000000000000 ∧
    Wire.listing.decode (oneStepText (minus :: magnitude)) = .ok ⟨[{
      id := "p", name := "a"
      branches := [{ id := "b", name := "m", steps := [⟨Int64.minValue, "s"⟩] }] }]⟩ ∧
    (∀ listing, Wire.listing.decode (oneStepText magnitude) ≠ .ok listing) ∧
    utf8 (toString Int64.minValue) = minus :: magnitude := by
  intro magnitude
  have isWhole : IsWhole magnitude :=
    isWhole_cons.2 (.inr ⟨by decide, rfl, List.all_eq_true.1 rfl⟩)
  have negative : IsNumber (minus :: magnitude) := by
    simpa using IsNumber.parts (.inr rfl) isWhole .none .none
  have positive : IsNumber magnitude := by
    simpa using IsNumber.parts (.inl rfl) isWhole .none .none
  have exact : IsExact (minus :: magnitude) :=
    ⟨negative, by decide, by decide, by decide, by decide, by decide⟩
  have tooHigh : ¬ IsExact magnitude := fun exact => absurd exact.high (by decide)
  have lowest : Int64.ofInt (integerValue (minus :: magnitude)) = Int64.minValue := by decide
  have kept := ordinals_exact_or_refused.2.2.2.1
  have written := (ordinals_exact_or_refused.2.2.2.2 _ exact).2.1
  have decodes {token : Bytes} (isValue : IsValue token) :=
    (kept _ [] _ [] allBlank_nil allBlank_nil (isText_oneStepText isValue)).1
  simp only [List.nil_append, List.append_nil] at decodes
  rw [lowest] at written
  refine ⟨by decide, (decodes (.number negative) _).2 ⟨?_, ?_⟩, fun listing decoded => ?_, written⟩
  · exact List.forall_mem_singleton.2 exact
  · rw [← lowest]
    rfl
  · have all := ((decodes (.number positive) listing).1 decoded).1
    exact tooHigh (List.forall_mem_singleton.1 all)

end ProjectClient

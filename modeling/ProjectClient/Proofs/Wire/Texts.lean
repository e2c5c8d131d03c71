import ProjectClient.Proofs.Json.Records
import ProjectClient.Proofs.Results

/-! The texts of the records that are exchanged with the server and saved, and that each shape reads
the texts of its values and no others. -/
namespace ProjectClient

open Json

/-! ## Fields as they are written -/

def Step.parts (step : Step) : List Part := [
  ⟨"step", False, IsOrdinal step.ordinal⟩,
  ⟨"name", False, IsString step.name⟩]

def Step.IsText (step : Step) : Bytes → Prop :=
  IsRecord step.parts

def Branch.parts (branch : Branch) : List Part := [
  ⟨"id", False, IsString branch.id⟩,
  ⟨"name", False, IsString branch.name⟩,
  ⟨"steps", branch.steps = [], IsListOf Step.IsText branch.steps⟩]

def Branch.IsText (branch : Branch) : Bytes → Prop :=
  IsRecord branch.parts

def Project.parts (project : Project) : List Part := [
  ⟨"id", False, IsString project.id⟩,
  ⟨"name", False, IsString project.name⟩,
  ⟨"updated_at", project.updatedAt = none, IsOptional project.updatedAt⟩,
  ⟨"branches", project.branches = [], IsListOf Branch.IsText project.branches⟩]

def Project.IsText (project : Project) : Bytes → Prop :=
  IsRecord project.parts

def Listing.parts (listing : Listing) : List Part := [
  ⟨"projects", False, IsListOf Project.IsText listing.projects⟩]

def Listing.IsText (listing : Listing) : Bytes → Prop :=
  IsRecord listing.parts

namespace Wire

/-! ## Fields as they are read -/

theorem required_eq_ok {β : Type} {key : String} {value : Option β} {b : β} :
    required key value = .ok b ↔ value = some b := by
  cases value <;> simp [required]

section

variable {δ α : Type} (key : String) (get : δ → Option String) (set : δ → String → δ)
  (value : α → String)

def textSlot : Slot δ α where
  β := String
  missing := none
  IsText := IsString
  reader := Reader.text
  key; get; set; value

end

def stepSlots : List (Slot StepDraft Step) := [
  { key := "step", β := Int64, missing := none, IsText := IsOrdinal, reader := Reader.ordinal
    get := (·.ordinal), set draft ordinal := { draft with ordinal := some ordinal }
    value := (·.ordinal) },
  textSlot "name" (·.name) (fun draft name => { draft with name := some name }) (·.name)]

theorem step_describes : Describes stepSlots step where
  fields := rfl
  keys := by decide
  reads := by
    simp only [stepSlots, List.forall_mem_cons]
    exact ⟨Reader.reads_ordinal, Reader.reads_text, nofun⟩
  get_set := by simp [stepSlots, textSlot]
  frame := by simp [stepSlots, textSlot]
  blank := by simp [stepSlots, textSlot, step]
  finish draft a := by
    obtain ⟨ordinal, name⟩ := a
    simp [stepSlots, textSlot, step, except_bind_eq_ok, required_eq_ok, pure, Except.pure]

theorem step_parts (a : Step) : stepSlots.map (·.part a) = a.parts := by
  simp [stepSlots, textSlot, Slot.part, Step.parts]

theorem reads_step : Reads step.read Step.IsText := by
  have reads := step_describes.reads_read
  simp only [step_parts] at reads
  exact reads

def branchSlots : List (Slot BranchDraft Branch) := [
  textSlot "id" (·.id) (fun draft id => { draft with id := some id }) (·.id),
  textSlot "name" (·.name) (fun draft name => { draft with name := some name }) (·.name),
  { key := "steps", β := List Step, missing := some [], IsText := IsListOf Step.IsText
    reader := Reader.list step.read, get := (·.steps)
    set draft steps := { draft with steps := some steps }, value := (·.steps) }]

theorem branch_describes : Describes branchSlots branch where
  fields := rfl
  keys := by decide
  reads := by
    simp only [branchSlots, List.forall_mem_cons]
    exact ⟨Reader.reads_text, Reader.reads_text, Reader.reads_list reads_step, nofun⟩
  get_set := by simp [branchSlots, textSlot]
  frame := by simp [branchSlots, textSlot]
  blank := by simp [branchSlots, textSlot, branch]
  finish draft a := by
    obtain ⟨id, name, steps⟩ := a
    obtain ⟨id', name', steps'⟩ := draft
    cases steps' <;>
      simp [branchSlots, textSlot, branch, except_bind_eq_ok, required_eq_ok, pure, Except.pure]

theorem branch_parts (a : Branch) : branchSlots.map (·.part a) = a.parts := by
  simp [branchSlots, textSlot, Slot.part, Branch.parts, eq_comm]

theorem reads_branch : Reads branch.read Branch.IsText := by
  have reads := branch_describes.reads_read
  simp only [branch_parts] at reads
  exact reads

def projectSlots : List (Slot ProjectDraft Project) := [
  textSlot "id" (·.id) (fun draft id => { draft with id := some id }) (·.id),
  textSlot "name" (·.name) (fun draft name => { draft with name := some name }) (·.name),
  { key := "updated_at", β := Option String, missing := some none, IsText := IsOptional
    reader := Reader.optionalText, get := (·.updatedAt)
    set draft updatedAt := { draft with updatedAt := some updatedAt }, value := (·.updatedAt) },
  { key := "branches", β := List Branch, missing := some [], IsText := IsListOf Branch.IsText
    reader := Reader.list branch.read, get := (·.branches)
    set draft branches := { draft with branches := some branches }, value := (·.branches) }]

theorem project_describes : Describes projectSlots project where
  fields := rfl
  keys := by decide
  reads := by
    simp only [projectSlots, List.forall_mem_cons]
    exact ⟨Reader.reads_text, Reader.reads_text, Reader.reads_optionalText,
      Reader.reads_list reads_branch, nofun⟩
  get_set := by simp [projectSlots, textSlot]
  frame := by simp [projectSlots, textSlot]
  blank := by simp [projectSlots, textSlot, project]
  finish draft a := by
    obtain ⟨id, name, updatedAt, branches⟩ := a
    obtain ⟨id', name', updatedAt', branches'⟩ := draft
    cases updatedAt' <;> cases branches' <;>
      simp [projectSlots, textSlot, project, except_bind_eq_ok, required_eq_ok, pure, Except.pure]

theorem project_parts (a : Project) : projectSlots.map (·.part a) = a.parts := by
  simp [projectSlots, textSlot, Slot.part, Project.parts, eq_comm]

theorem reads_project : Reads project.read Project.IsText := by
  have reads := project_describes.reads_read
  simp only [project_parts] at reads
  exact reads

def listingSlots : List (Slot (Option (List Project)) Listing) := [
  { key := "projects", β := List Project, missing := none, IsText := IsListOf Project.IsText
    reader := Reader.list project.read, get := id, set _ projects := some projects
    value := (·.projects) }]

theorem listing_describes : Describes listingSlots listing where
  fields := rfl
  keys := by decide
  reads := by
    simp only [listingSlots, List.forall_mem_cons]
    exact ⟨Reader.reads_list reads_project, nofun⟩
  get_set := by simp [listingSlots]
  frame := by simp [listingSlots]
  blank := by simp [listingSlots, listing]
  finish draft a := by
    obtain ⟨projects⟩ := a
    simp [listingSlots, listing, except_bind_eq_ok, required_eq_ok, pure, Except.pure]

theorem listing_parts (a : Listing) : listingSlots.map (·.part a) = a.parts := by
  simp [listingSlots, Slot.part, Listing.parts]

def creationSlots : List (Slot (Option String) Creation) :=
  [textSlot "name" id (fun _ name => some name) (·.name)]

theorem creation_describes : Describes creationSlots creation where
  fields := rfl
  keys := by decide
  reads := by
    simp only [creationSlots, List.forall_mem_cons]
    exact ⟨Reader.reads_text, nofun⟩
  get_set := by simp [creationSlots, textSlot]
  frame := by simp [creationSlots]
  blank := by simp [creationSlots, textSlot, creation]
  finish draft a := by
    obtain ⟨name⟩ := a
    simp [creationSlots, textSlot, creation, except_bind_eq_ok, required_eq_ok, pure, Except.pure]

def settingsSlots : List (Slot (Option String) Settings) :=
  [textSlot "server_url" id (fun _ url => some url) (·.serverUrl)]

theorem settings_describes : Describes settingsSlots settings where
  fields := rfl
  keys := by decide
  reads := by
    simp only [settingsSlots, List.forall_mem_cons]
    exact ⟨Reader.reads_text, nofun⟩
  get_set := by simp [settingsSlots, textSlot]
  frame := by simp [settingsSlots]
  blank := by simp [settingsSlots, textSlot, settings]
  finish draft a := by
    obtain ⟨url⟩ := a
    simp [settingsSlots, textSlot, settings, except_bind_eq_ok, required_eq_ok, pure, Except.pure]

end Wire

end ProjectClient

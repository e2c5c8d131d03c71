import ProjectClient.Json.Record
import ProjectClient.Json.Writer
import ProjectClient.Project

/-! The JSON forms of projects, of what is exchanged with the server and of the saved settings. -/
namespace ProjectClient

open Json (Reader RecordField Shape)

structure Listing where
  projects : List Project
deriving DecidableEq

structure Creation where
  name : String
deriving DecidableEq

structure Settings where
  serverUrl : String := "http://127.0.0.1:8000"
deriving DecidableEq

namespace Wire

/-- A field given by its place in a draft. -/
def field {δ β : Type} (key : String) (isOptional : Bool) (get : δ → Option β)
    (set : δ → β → δ) (reader : Reader β) : RecordField δ where
  key := key
  isOptional := isOptional
  isSet draft := (get draft).isSome
  read draft := do return set draft (← reader)

def required {β : Type} (key : String) : Option β → Except String β
  | some value => .ok value
  | none => .error key

structure StepDraft where
  ordinal : Option Int64 := none
  name : Option String := none

def step : Shape StepDraft Step where
  name := "Step"
  fields := [
    field "step" false (·.ordinal) (fun draft ordinal => { draft with ordinal := some ordinal })
      Reader.ordinal,
    field "name" false (·.name) (fun draft name => { draft with name := some name }) Reader.text]
  blank := {}
  finish draft := do
    let ordinal ← required "step" draft.ordinal
    let name ← required "name" draft.name
    return { ordinal, name }

structure BranchDraft where
  id : Option String := none
  name : Option String := none
  steps : Option (List Step) := none

def branch : Shape BranchDraft Branch where
  name := "Branch"
  fields := [
    field "id" false (·.id) (fun draft id => { draft with id := some id }) Reader.text,
    field "name" false (·.name) (fun draft name => { draft with name := some name }) Reader.text,
    field "steps" true (·.steps) (fun draft steps => { draft with steps := some steps })
      (Reader.list step.read)]
  blank := {}
  finish draft := do
    let id ← required "id" draft.id
    let name ← required "name" draft.name
    return { id, name, steps := draft.steps.getD [] }

structure ProjectDraft where
  id : Option String := none
  name : Option String := none
  updatedAt : Option (Option String) := none
  branches : Option (List Branch) := none

def project : Shape ProjectDraft Project where
  name := "Project"
  fields := [
    field "id" false (·.id) (fun draft id => { draft with id := some id }) Reader.text,
    field "name" false (·.name) (fun draft name => { draft with name := some name }) Reader.text,
    field "updated_at" true (·.updatedAt)
      (fun draft updatedAt => { draft with updatedAt := some updatedAt }) Reader.optionalText,
    field "branches" true (·.branches)
      (fun draft branches => { draft with branches := some branches }) (Reader.list branch.read)]
  blank := {}
  finish draft := do
    let id ← required "id" draft.id
    let name ← required "name" draft.name
    return {
      id, name, updatedAt := draft.updatedAt.getD none, branches := draft.branches.getD [] }

def listing : Shape (Option (List Project)) Listing where
  name := "ProjectsEnvelope"
  fields := [field "projects" false id (fun _ projects => some projects) (Reader.list project.read)]
  blank := none
  finish draft := do return { projects := ← required "projects" draft }

def creation : Shape (Option String) Creation where
  name := "CreateProjectRequest"
  fields := [field "name" false id (fun _ name => some name) Reader.text]
  blank := none
  finish draft := do return { name := ← required "name" draft }

def settings : Shape (Option String) Settings where
  name := "ClientSettings"
  fields := [field "server_url" false id (fun _ url => some url) Reader.text]
  blank := none
  finish draft := do return { serverUrl := ← required "server_url" draft }

end Wire

def Json.Shape.decode {δ α : Type} (shape : Shape δ α) (bytes : Json.Bytes) :
    Except Json.Error α :=
  Reader.readAll shape.read bytes

def Step.json (step : Step) : String :=
  Json.ofMembers [("step", toString step.ordinal), ("name", Json.ofString step.name)]

def Branch.json (branch : Branch) : String :=
  Json.ofMembers [("id", Json.ofString branch.id), ("name", Json.ofString branch.name),
    ("steps", Json.ofList Step.json branch.steps)]

def Project.json (project : Project) : String :=
  Json.ofMembers [("id", Json.ofString project.id), ("name", Json.ofString project.name),
    ("updated_at", Json.ofOptional Json.ofString project.updatedAt),
    ("branches", Json.ofList Branch.json project.branches)]

def Listing.json (listing : Listing) : String :=
  Json.ofMembers [("projects", Json.ofList Project.json listing.projects)]

def Creation.json (creation : Creation) : String :=
  Json.ofMembers [("name", Json.ofString creation.name)]

def Settings.json (settings : Settings) : String :=
  Json.ofMembers [("server_url", Json.ofString settings.serverUrl)]

def Settings.fileText (settings : Settings) : String :=
  Json.ofMembersOnLines [("server_url", Json.ofString settings.serverUrl)]

end ProjectClient

import ProjectClient.State
import ProjectClient.Text.Blank
import ProjectClient.Timestamp.Shown

/-! What the projects screen shows for a state: the list, the status line, the open question and
whether the create form can be submitted. -/
namespace ProjectClient

structure BranchView where
  id : String
  name : String
  steps : List Step
  latestStep : Option String
deriving DecidableEq

structure RowView where
  id : String
  name : String
  updated : String
  branchCount : Nat
  stepCount : Nat
  branches : List BranchView
deriving DecidableEq

inductive ListView where
  | empty (marker : String)
  | rows (rows : List RowView)
deriving DecidableEq

structure ConfirmView where
  projectId : String
  title : String
  prompt : String
deriving DecidableEq

structure ScreenView where
  list : ListView
  status : Option Status
  confirm : Option ConfirmView
  canSubmitCreate : Bool
deriving DecidableEq

def Branch.view (branch : Branch) : BranchView where
  id := branch.id
  name := branch.name
  steps := branch.steps
  latestStep := branch.latestStep?.map (·.name)

def Project.view (project : Project) : RowView where
  id := project.id
  name := project.name
  updated := Timestamp.shown project.updatedAt
  branchCount := project.branches.length
  stepCount := project.stepCount
  branches := project.branches.map Branch.view

def ListView.ofProjects : List Project → ListView
  | [] => .empty "No projects yet."
  | projects => .rows (projects.map Project.view)

def State.confirmView (state : State) : Option ConfirmView :=
  state.pendingDelete.map fun pending => ⟨pending.id, "Delete project", pending.prompt⟩

def State.view (state : State) : ScreenView where
  list := .ofProjects state.projects
  status := state.status
  confirm := state.confirmView
  canSubmitCreate := ¬ Text.IsBlank state.createDraft

end ProjectClient

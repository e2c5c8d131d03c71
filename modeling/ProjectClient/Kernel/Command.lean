import ProjectClient.Flow.Stage
import ProjectClient.Text.Blank

/-! The commands of the user, and what each does before a flow starts. Deleting takes two commands:
a request, and a confirmation that uses the request up. -/
namespace ProjectClient

inductive Command where
  | loadInitialState
  | refresh
  | submitCreate
  | createProject (name : String)
  | requestDelete (id : String)
  | confirmDelete
  | cancelDelete
  | clearStatus
deriving DecidableEq

namespace State

/-- The listed project with an id, the first one if there are several, as the target of a delete. -/
def deleteTarget? (state : State) (id : String) : Option PendingDelete :=
  (state.projects.find? (·.id = id)).map fun project => ⟨project.id, project.name⟩

/-- Takes the draft as the name of a new project. A blank draft does nothing, and any other is
cleared before the call goes out. -/
def submitDraft (state : State) : State × Option Flow :=
  if Text.IsBlank state.createDraft then (state, none)
  else (state.apply .createDraftSubmitted, some (.create (Text.trim state.createDraft)))

/-- The part of a command that is done at once, and the flow that it starts. -/
def accept (state : State) : Command → State × Option Flow
  | .loadInitialState => (state, some .refresh)
  | .refresh => (state, some .refresh)
  | .submitCreate => state.submitDraft
  | .createProject name => (state.editDraft fun _ => name).submitDraft
  | .requestDelete id =>
    match state.deleteTarget? id with
    | some target => (state.apply (.deleteRequested target), none)
    | none => (state, none)
  | .confirmDelete =>
    match state.pendingDelete with
    | some target => (state.apply .deleteConfirmed, some (.delete target))
    | none => (state, none)
  | .cancelDelete =>
    (if state.pendingDelete.isSome then state.apply .deleteDeclined else state, none)
  | .clearStatus => (state.apply .statusCleared, none)

/-- Applies one event. The second part is the status it wrote, known by the changed revision. -/
def applyReporting (state : State) (event : Event) : State × Option Status :=
  let next := state.apply event
  (next, if next.statusRevision = state.statusRevision then none else next.status)

def applyTrail (state : State) : List Event → State × List Status
  | [] => (state, [])
  | event :: events =>
    let (next, written) := state.applyReporting event
    let (last, trail) := next.applyTrail events
    (last, written.toList ++ trail)

end State

end ProjectClient

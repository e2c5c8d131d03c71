import ProjectClient.State

/-! Events and what each does to the state. Results of a refresh count only while no newer refresh
has started. -/
namespace ProjectClient

inductive Event where
  | refreshStarted (token : Token)
  | projectsLoaded (token : Token) (projects : List Project)
  | refreshFailed (token : Token)
  | createDraftSubmitted
  | projectCreated
  | createFailed
  | deleteRequested (target : PendingDelete)
  | deleteDeclined
  | deleteConfirmed
  | projectDeleted
  | deleteFailed
  | statusCleared
  /-- A fault outside the flows that the user has to see. -/
  | userError (text : String)
deriving DecidableEq, Inhabited

namespace State

def Supersedes (state : State) (token : Token) : Prop :=
  ∀ latest ∈ state.latestRefresh, latest < token

instance (state : State) (token : Token) : Decidable (state.Supersedes token) :=
  match h : state.latestRefresh with
  | none => isTrue (by simp [Supersedes, h])
  | some latest => decidable_of_iff (latest < token) (by simp [Supersedes, h])

def apply (state : State) : Event → State
  | .refreshStarted token =>
    if state.Supersedes token then
      { state with latestRefresh := some token }.setStatus .loading
    else state
  | .projectsLoaded token projects =>
    if state.latestRefresh = some token then { state with projects, status := none } else state
  | .refreshFailed token =>
    if state.latestRefresh = some token then state.setStatus .loadFailed else state
  | .createDraftSubmitted => { state with createDraft := "" }
  | .projectCreated => state.setStatus .created
  | .createFailed => state.setStatus .createFailed
  | .deleteRequested target => { state with pendingDelete := some target }
  | .deleteDeclined => { state with pendingDelete := none }
  | .deleteConfirmed => { state with pendingDelete := none }
  | .projectDeleted => state.setStatus .deleted
  | .deleteFailed => state.setStatus .deleteFailed
  | .statusCleared => { state with status := none }
  | .userError text => state.setStatus ⟨.error, text⟩

def applyAll (state : State) (events : List Event) : State :=
  events.foldl apply state

def editDraft (state : State) (edit : String → String) : State :=
  { state with createDraft := edit state.createDraft }

end State

end ProjectClient

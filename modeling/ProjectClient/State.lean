import ProjectClient.Project

/-! What the client shows and remembers: the last snapshot, one status line, the delete that waits
for an answer and the draft of the create form. -/
namespace ProjectClient

inductive StatusKind where
  | info
  | success
  | error
deriving DecidableEq, Inhabited

structure Status where
  kind : StatusKind
  text : String
deriving DecidableEq, Inhabited

namespace Status

def loading : Status := ⟨.info, "Loading…"⟩

def loadFailed : Status := ⟨.error, "Failed to load projects"⟩

def created : Status := ⟨.success, "Project created"⟩

def createFailed : Status := ⟨.error, "Failed to create project"⟩

def deleted : Status := ⟨.success, "Project deleted"⟩

def deleteFailed : Status := ⟨.error, "Failed to delete project"⟩

end Status

structure PendingDelete where
  id : String
  /-- The name of the project when the delete was requested. -/
  name : String
deriving DecidableEq, Inhabited

def PendingDelete.prompt (pending : PendingDelete) : String :=
  s!"Delete project \"{pending.name}\"? This cannot be undone."

/-- The number of one refresh run. Later runs have higher tokens: no client lives to make the 2⁶⁴
runs after which a counter of 64 bits comes round. -/
abbrev Token := Nat

structure State where
  /-- The last applied snapshot, in the server's order. -/
  projects : List Project := []
  status : Option Status := none
  pendingDelete : Option PendingDelete := none
  createDraft : String := ""
  /-- The newest refresh whose start was applied. -/
  latestRefresh : Option Token := none
  /-- The number of status writes, modulo 2⁶⁴; a repeated text counts again. -/
  statusRevision : UInt64 := 0
deriving DecidableEq, Inhabited

def State.setStatus (state : State) (status : Status) : State :=
  { state with status := some status, statusRevision := state.statusRevision + 1 }

end ProjectClient

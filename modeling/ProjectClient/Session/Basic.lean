import ProjectClient.Failure
import ProjectClient.Http.Resource
import ProjectClient.Kernel.Basic
import ProjectClient.Screen.Terminal

/-! A session at the terminal: commands run one after the other on one kernel, and each prints what
came of it. -/
namespace ProjectClient

/-- Work on the kernel of a session. What happened to the kernel stays when the work fails. -/
abbrev SessionM (m : Type → Type) (α : Type) : Type := ExceptT Failure (StateT Kernel m) α

structure Session (m : Type → Type) where
  api : Api m
  print : String → m Unit

namespace Session

/-- The lines for what a command reported. Information is not worth a line. -/
def reports (trail : List Status) : String :=
  Text.ofLines ((trail.filter (·.kind ≠ .info)).map Status.line)

variable {m : Type → Type} [Monad m] (session : Session m)

def say (text : String) : SessionM m Unit :=
  ExceptT.lift (StateT.lift (session.print text))

/-- Runs a command and prints its reports. A status that is an error makes it fail, even if it is
older than the command. -/
def perform (command : Command) : SessionM m Unit := do
  let (kernel, trail?) ←
    ExceptT.lift (StateT.lift (Kernel.execute session.api (← get) command))
  set kernel
  match trail? with
  | none => throw .unfinished
  | some trail =>
    session.say (reports trail)
    match kernel.state.status with
    | some ⟨.error, text⟩ => throw (.status text)
    | _ => return ()

def printList (withSteps : Bool) : SessionM m ListView := do
  let view := ListView.ofProjects (← get).state.projects
  session.say (view.text withSteps)
  return view

def list (withSteps : Bool) : SessionM m ListView := do
  session.perform .loadInitialState
  session.printList withSteps

def create (name : String) : SessionM m ListView := do
  if Text.IsBlank name then throw .blankName
  else
    session.perform (.createProject name)
    session.printList false

/-- The first project with an id, or else the first one with a name, in which upper and lower case
of ASCII letters are the same. -/
def find? (projects : List Project) (text : String) : Option Project :=
  let folded (text : String) : String := text.map Char.toLower
  (projects.find? (·.id = text)).or
    (projects.find? fun project => folded project.name = folded text)

/-- Deletes a project if the user wants it. Answers whether the delete was sent. -/
def delete (text : String) (confirm : String → m (Except Failure Bool)) : SessionM m Bool := do
  session.perform .refresh
  match find? (← get).state.projects text with
  | none => throw (.unknownProject text)
  | some project => do
    session.perform (.requestDelete project.id)
    match (← get).state.confirmView with
    | none => throw (.unlisted text)
    | some view => do
      if ← ExceptT.mk (StateT.lift (confirm view.prompt)) then
        session.perform .confirmDelete
        let _ ← session.printList false
        return true
      else
        session.perform .cancelDelete
        session.say "Aborted.\n"
        return false

end Session

end ProjectClient

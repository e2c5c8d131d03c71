import ProjectClient.CommandLine.Arguments
import ProjectClient.Session.Basic
import ProjectClient.Session.Server
import ProjectClient.Session.Terminal

/-! One run of the client from its command line. -/
namespace ProjectClient.CommandLine

structure Host (m : Type → Type) where
  files : FileSystem m
  directory : Option String
  network : Http.Network m
  terminal : Terminal m
  server : Option String
  idna : Url.Idna := .asciiOnly

def serverVariable : String := "PILOT_SERVER_URL"

inductive Ending where
  | done
  | failed (failure : Failure)
  /-- The words ask for nothing that the client does. -/
  | misused

namespace Ending

def exitCode : Ending → UInt32
  | done => 0
  | failed _ => 1
  | misused => 2

def report? : Ending → Option String
  | failed failure => some failure.report
  | _ => none

end Ending

namespace Host

variable {m : Type → Type} [Monad m] (host : Host m)

def settings : SettingsStore m where
  files := host.files
  directory := host.directory

def withSession {α : Type} (server : Option String) (work : Session m → SessionM m α) :
    ExceptT Failure m Unit := do
  let server ← host.settings.server server
  let resource ← ExceptT.mk
    (pure ((Http.Resource.ofServer server host.idna).mapError Failure.server))
  let session := { api := resource.api host.network, print := host.terminal.print }
  let (result, _) ← ExceptT.lift ((work session).run.run {})
  let _ ← ExceptT.mk (pure result)

def confirm (isConfirmed : Bool) (question : String) : m (Except Failure Bool) :=
  if isConfirmed then pure (.ok true) else host.terminal.confirm question

/-- Does a task. A server that the invocation names goes before the one in the environment. -/
def perform (invocation : Invocation) : ExceptT Failure m Unit := do
  let server := invocation.server.or host.server
  match invocation.task with
  | .list withSteps => host.withSession server fun session => session.list withSteps
  | .create name => host.withSession server fun session => session.create name
  | .delete project isConfirmed =>
    host.withSession server fun session => session.delete project (host.confirm isConfirmed)
  | .showServer =>
    let _ ← host.settings.showServer host.terminal.print server
  | .setServer url =>
    let _ ← host.settings.setServer host.terminal.print url host.idna

def run (words : List String) : m Ending := do
  match Invocation.parse? words with
  | none => return .misused
  | some invocation =>
    match ← (host.perform invocation).run with
    | .ok () => return .done
    | .error failure => return .failed failure

end Host

end ProjectClient.CommandLine

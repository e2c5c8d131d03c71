import ProjectClient.Kernel.Basic

/-! A projects server that lives in memory. It keeps a log of the calls made to it and can be told
to fail or to crash on a kind of call. -/
namespace ProjectClient

inductive CallKind where
  | list
  | create
  | delete
deriving DecidableEq

def Call.kind : Call → CallKind
  | list => .list
  | create _ => .create
  | delete _ => .delete

structure MemoryServer where
  projects : List Project := []
  /-- The number of projects created so far; it makes the next id. -/
  created : Nat := 0
  failing : CallKind → Option ApiError := fun _ => none
  crashing : Option CallKind := none
  calls : List Call := []

namespace MemoryServer

def setFailing (server : MemoryServer) (kind : CallKind) (error? : Option ApiError) :
    MemoryServer :=
  { server with failing := fun k => if k = kind then error? else server.failing k }

/-- Logs a call and answers it by `serve`, unless the server crashes or fails on it. -/
def handle {α : Type} (call : Call) (serve : MemoryServer → Outcome α × MemoryServer)
    (server : MemoryServer) : Outcome α × MemoryServer :=
  let server := { server with calls := server.calls ++ [call] }
  if server.crashing = some call.kind then (.crashed, server)
  else match server.failing call.kind with
    | some error => (.failed error, server)
    | none => serve server

def create (name : String) (server : MemoryServer) : Outcome Unit × MemoryServer :=
  let created := server.created + 1
  let project : Project := { id := s!"id-{created}", name }
  (.ok (), { server with created, projects := server.projects ++ [project] })

def delete (id : String) (server : MemoryServer) : Outcome Unit × MemoryServer :=
  if server.projects.any (·.id = id) then
    (.ok (), { server with projects := server.projects.filter (·.id ≠ id) })
  else (.failed (.http 404), server)

def mutate (mutation : Mutation) : MemoryServer → Outcome Unit × MemoryServer :=
  handle mutation.call <|
    match mutation with
    | .create name => create name
    | .delete id => delete id

def list : MemoryServer → Outcome (List Project) × MemoryServer :=
  handle .list fun server => (.ok server.projects, server)

def api : Api (StateM MemoryServer) where
  list := list
  mutate := mutate

end MemoryServer

end ProjectClient

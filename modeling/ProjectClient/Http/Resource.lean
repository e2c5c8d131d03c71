import ProjectClient.Flow.Stage
import ProjectClient.Http.Message
import ProjectClient.Url.Server
import ProjectClient.Wire

/-! The projects of a web server: the request for each call and the reading of its answer. -/
namespace ProjectClient.Http

structure Resource where
  base : Url
  /-- The address of all projects. Those of single projects lie beneath it. -/
  collection : Url
deriving DecidableEq

def accepted : Answer → Except ApiError Response
  | .error text => .error (.transport text)
  | .ok response =>
    if response.IsSuccess then .ok response else .error (.http response.status)

def listed (answer : Answer) : Except ApiError (List Project) := do
  let response ← accepted answer
  match response.body with
  | .error text => throw (.transport text)
  | .ok bytes =>
    match Wire.listing.decode bytes with
    | .ok listing => return listing.projects
    | .error e => throw (.decode e.message)

/-- Whether a change was made. Nothing is read from the body. -/
def changed (answer : Answer) : Except ApiError Unit := do
  let _ ← accepted answer

namespace Resource

def ofServer (text : String) (idna : Url.Idna := .asciiOnly) : Except ApiError Resource := do
  let base ← Url.ofServer text idna
  return { base, collection := base.projects }

def request (resource : Resource) : Call → Request
  | .list => .to resource.collection .get
  | .create name => (Request.to resource.collection .post).withJson (Creation.json ⟨name⟩)
  | .delete id => .to (resource.collection.project id) .delete

variable {m : Type → Type} [Monad m]

def list (resource : Resource) (network : Network m) : m (Except ApiError (List Project)) := do
  return listed (← network (resource.request .list))

def mutate (resource : Resource) (network : Network m) (mutation : Mutation) :
    m (Except ApiError Unit) := do
  return changed (← network (resource.request mutation.call))

def api (resource : Resource) (network : Network m) : Api m where
  list := return .ofExcept (← resource.list network)
  mutate mutation := return .ofExcept (← resource.mutate network mutation)

end Resource

end ProjectClient.Http

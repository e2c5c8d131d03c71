import ProjectClient.Proofs.Kernel.Plain
import ProjectClient.Proofs.Results
import ProjectClient.Session.Basic

/-! A session with everything that comes in laid down beforehand. The result of a command is read
off the answers of the server and of the user alone. -/
namespace ProjectClient.Session

structure Desk where
  requests : List Http.Request := []
  printed : String := ""
  asked : List String := []

namespace Desk

def request (desk : Desk) (request : Http.Request) : Desk :=
  { desk with requests := desk.requests ++ [request] }

def print (desk : Desk) (text : String) : Desk :=
  { desk with printed := desk.printed ++ text }

def ask (desk : Desk) (question : String) : Desk :=
  { desk with asked := desk.asked ++ [question] }

@[simp] theorem requests_print (desk : Desk) (text : String) :
    (desk.print text).requests = desk.requests :=
  rfl

end Desk

structure Script where
  /-- The answer to the last of the requests of the command. -/
  answer : List Http.Request → Http.Answer
  confirmed : Except Failure Bool

inductive Job where
  | list (withSteps : Bool)
  | create (name : String)
  | delete (text : String)

inductive Returned where
  | view (view : ListView)
  | sent (isSent : Bool)
deriving DecidableEq

namespace Script

variable (script : Script) (resource : Http.Resource)

def network : Http.Network (StateM Desk) := fun request desk =>
  (script.answer (desk.request request).requests, desk.request request)

def session : Session (StateM Desk) where
  api := resource.api script.network
  print text desk := ((), desk.print text)

def confirm (question : String) : StateM Desk (Except Failure Bool) := fun desk =>
  (script.confirmed, desk.ask question)

/-- Prepared answers. When there are none left, the server is out of reach. -/
def ofAnswers (answers : List Http.Answer) (confirmed : Except Failure Bool) : Script where
  answer requests := answers.getD (requests.length - 1) (.error "out of reach")
  confirmed := confirmed

def Lists (requests : List Http.Request) (listing : Listing) : Prop :=
  ∃ response bytes, script.answer requests = .ok response ∧
    200 ≤ response.status ∧ response.status ≤ 299 ∧
    response.body = .ok bytes ∧ Wire.listing.decode bytes = .ok listing

def Accepts (requests : List Http.Request) : Prop :=
  ∃ response, script.answer requests = .ok response ∧
    200 ≤ response.status ∧ response.status ≤ 299

end Script

namespace Job

variable (resource : Http.Resource) (script : Script)

def work : Job → SessionM (StateM Desk) Returned
  | list withSteps => return .view (← (script.session resource).list withSteps)
  | create name => return .view (← (script.session resource).create name)
  | delete text => return .sent (← (script.session resource).delete text script.confirm)

def run (job : Job) (kernel : Kernel) : (Except Failure Returned × Kernel) × Desk :=
  (job.work resource script).run.run kernel {}

end Job

def kernelAfter (resource : Http.Resource) (past : List (Job × Script)) : Kernel :=
  past.foldl (fun kernel done => (done.1.run resource done.2 kernel).1.2) {}

/-! ## What is asked and what is made of the answers -/

namespace Script

variable (script : Script)

/-- The list that is shown when the server is asked for it with the last of the requests. -/
def fetch (requests : List Http.Request) : Except Failure (List Project) :=
  (Http.listed (script.answer requests)).mapError fun _ => .status Status.loadFailed.text

def change (mutation : Mutation) (requests : List Http.Request) : Except Failure Unit :=
  (Http.changed (script.answer requests)).mapError fun _ => .status (mutation.status false).text

variable (resource : Http.Resource)

def make (mutation : Mutation) (requests : List Http.Request) : Except Failure (List Project) := do
  let asked := requests ++ [resource.request mutation.call]
  script.change mutation asked
  script.fetch (asked ++ [resource.request .list])

def deleteProject (id : String) (requests : List Http.Request) : Except Failure Bool := do
  if ← script.confirmed then
    let _ ← script.make resource (.delete id) requests
    return true
  else return false

def deleteFrom (text : String) (projects : List Project) : Except Failure Bool :=
  match find? projects text with
  | none => .error (.unknownProject text)
  | some project => script.deleteProject resource project.id [resource.request .list]

end Script

/-- The result of a command, read off the answers alone. -/
def Job.result (resource : Http.Resource) (script : Script) : Job → Except Failure Returned
  | list _ => .view <$> .ofProjects <$> script.fetch [resource.request .list]
  | create name =>
    .view <$> if Text.IsBlank name then .error .blankName
      else .ofProjects <$> script.make resource (.create (Text.trim name)) []
  | delete text =>
    .sent <$> (script.fetch [resource.request .list] >>= script.deleteFrom resource text)

/-! ## Success -/

theorem accepted_eq_ok {answer : Http.Answer} {response : Http.Response} :
    Http.accepted answer = .ok response ↔
      answer = .ok response ∧ 200 ≤ response.status ∧ response.status ≤ 299 := by
  have range (given : Http.Response) : given.IsSuccess ↔ 200 ≤ given.status ∧ given.status ≤ 299 :=
    and_congr_right fun _ => Nat.lt_succ_iff
  cases answer with
  | error text => simp [Http.accepted]
  | ok given =>
    rw [Http.accepted, ite_error_eq_ok]
    constructor
    · rintro ⟨success, rfl⟩
      exact ⟨rfl, (range _).1 success⟩
    · rintro ⟨⟨⟩, inside⟩
      exact ⟨(range _).2 inside, rfl⟩

namespace Script

variable {script : Script} {resource : Http.Resource} {requests : List Http.Request}

theorem change_eq_ok {mutation : Mutation} :
    script.change mutation requests = .ok () ↔ script.Accepts requests := by
  simp only [change, mapError_eq_ok, Http.changed, except_bind_eq_ok, accepted_eq_ok, Accepts]
  exact exists_congr fun response => and_iff_left rfl

theorem fetch_eq_ok {projects : List Project} :
    script.fetch requests = .ok projects ↔
      ∃ listing, script.Lists requests listing ∧ listing.projects = projects := by
  rw [fetch, mapError_eq_ok, Http.listed, except_bind_eq_ok]
  constructor
  · rintro ⟨response, accepted, read⟩
    obtain ⟨answered, least, most⟩ := accepted_eq_ok.1 accepted
    split at read
    · cases read
    · rename_i bytes body
      split at read
      · rename_i listing decoded
        cases read
        exact ⟨listing, ⟨response, bytes, answered, least, most, body, decoded⟩, rfl⟩
      · cases read
  · rintro ⟨listing, ⟨response, bytes, answered, least, most, body, decoded⟩, rfl⟩
    refine ⟨response, accepted_eq_ok.2 ⟨answered, least, most⟩, ?_⟩
    simp only [body, decoded]
    rfl

theorem make_eq_ok {mutation : Mutation} {projects : List Project} :
    script.make resource mutation requests = .ok projects ↔
      script.change mutation (requests ++ [resource.request mutation.call]) = .ok () ∧
      script.fetch (requests ++ [resource.request mutation.call] ++ [resource.request .list]) =
        .ok projects := by
  simp only [make, except_bind_eq_ok]
  exact ⟨fun ⟨_, made⟩ => made, fun made => ⟨(), made⟩⟩

theorem deleteFrom_eq_ok_true {text : String} {projects : List Project} :
    script.deleteFrom resource text projects = .ok true ↔
      ∃ project, find? projects text = some project ∧ script.confirmed = .ok true ∧
        script.Accepts [resource.request .list, resource.request (.delete project.id)] ∧
        ∃ last, script.Lists [resource.request .list, resource.request (.delete project.id),
          resource.request .list] last := by
  rw [deleteFrom]
  cases find? projects text with
  | none => simp
  | some project =>
    simp only [Option.some.injEq, exists_eq_left', deleteProject, except_bind_eq_ok]
    constructor
    · rintro ⟨isConfirmed, confirmed, sent⟩
      cases isConfirmed with
      | false => cases sent
      | true =>
        obtain ⟨_, made, _⟩ := except_bind_eq_ok.1 sent
        obtain ⟨changed, fetched⟩ := make_eq_ok.1 made
        obtain ⟨last, shows, _⟩ := fetch_eq_ok.1 fetched
        exact ⟨confirmed, change_eq_ok.1 changed, last, shows⟩
    · rintro ⟨confirmed, accepts, last, shows⟩
      have made : script.make resource (.delete project.id) [resource.request .list] =
          .ok last.projects :=
        make_eq_ok.2 ⟨change_eq_ok.2 accepts, fetch_eq_ok.2 ⟨last, shows, rfl⟩⟩
      exact ⟨true, confirmed, except_bind_eq_ok.2 ⟨_, made, rfl⟩⟩

end Script

namespace Job

variable {resource : Http.Resource} {script : Script}

theorem result_list_eq_ok {withSteps : Bool} {view : ListView} :
    (list withSteps).result resource script = .ok (.view view) ↔
      ∃ listing, script.Lists [resource.request .list] listing ∧
        view = .ofProjects listing.projects := by
  simp only [result, map_eq_ok, Script.fetch_eq_ok]
  constructor
  · rintro ⟨_, ⟨_, ⟨listing, lists, rfl⟩, rfl⟩, ⟨⟩⟩
    exact ⟨listing, lists, rfl⟩
  · rintro ⟨listing, lists, rfl⟩
    exact ⟨_, ⟨_, ⟨listing, lists, rfl⟩, rfl⟩, rfl⟩

theorem exists_result_create_eq_ok {name : String} (named : ¬ Text.IsBlank name) :
    (∃ view, (create name).result resource script = .ok (.view view)) ↔
      script.Accepts [resource.request (.create (Text.trim name))] ∧
      ∃ listing, script.Lists
        [resource.request (.create (Text.trim name)), resource.request .list] listing := by
  simp only [result, if_neg named, map_eq_ok, Script.make_eq_ok, Script.change_eq_ok,
    Script.fetch_eq_ok]
  constructor
  · rintro ⟨_, _, ⟨_, ⟨accepts, listing, lists, rfl⟩, rfl⟩, _⟩
    exact ⟨accepts, listing, lists⟩
  · rintro ⟨accepts, listing, lists⟩
    exact ⟨_, _, ⟨_, ⟨accepts, listing, lists, rfl⟩, rfl⟩, rfl⟩

theorem result_delete_eq_ok_true {text : String} :
    (delete text).result resource script = .ok (.sent true) ↔
      ∃ listing project, script.Lists [resource.request .list] listing ∧
        find? listing.projects text = some project ∧ script.confirmed = .ok true ∧
        script.Accepts [resource.request .list, resource.request (.delete project.id)] ∧
        ∃ last, script.Lists [resource.request .list, resource.request (.delete project.id),
          resource.request .list] last := by
  simp only [result, map_eq_ok, except_bind_eq_ok, Script.fetch_eq_ok]
  constructor
  · rintro ⟨_, ⟨_, ⟨listing, lists, rfl⟩, deleted⟩, ⟨⟩⟩
    obtain ⟨project, found, good⟩ := Script.deleteFrom_eq_ok_true.1 deleted
    exact ⟨listing, project, lists, found, good⟩
  · rintro ⟨listing, project, lists, found, good⟩
    have deleted := Script.deleteFrom_eq_ok_true.2 ⟨project, found, good⟩
    exact ⟨true, ⟨_, ⟨listing, lists, rfl⟩, deleted⟩, rfl⟩

end Job

end ProjectClient.Session

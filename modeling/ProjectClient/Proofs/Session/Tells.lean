import ProjectClient.Proofs.Session.Leads
import ProjectClient.Proofs.Session.Script

/-! Commands of a session start over. Whatever page earlier commands left, a command has the result
that the answers tell, and the same comes out. -/
namespace ProjectClient.Session

def Tells {α : Type} (work : SessionM (StateM Desk) α) (before : Page → Page) (desk : Desk)
    (result : Except Failure α) : Prop :=
  ∃ desk', ∀ page, ∃ page', Leads work (before page) desk result page' desk'

namespace Tells

variable {α β : Type} {work : SessionM (StateM Desk) α} {next : α → SessionM (StateM Desk) β}
variable {before after : Page → Page} {desk desk' : Desk}

theorem intro {result : Except Failure α}
    (leads : ∀ page, Leads work (before page) desk result (after page) desk') :
    Tells work before desk result :=
  ⟨desk', fun page => ⟨after page, leads page⟩⟩

theorem bind {a : α} {result : Except Failure β}
    (first : ∀ page, Leads work (before page) desk (.ok a) (after page) desk')
    (rest : Tells (next a) after desk' result) : Tells (work >>= next) before desk result := by
  obtain ⟨desk'', leads⟩ := rest
  refine ⟨desk'', fun page => ?_⟩
  obtain ⟨page', last⟩ := leads page
  exact ⟨page', (first page).bind last⟩

theorem bind_error {failure : Failure} (first : Tells work before desk (.error failure)) :
    Tells (work >>= next) before desk (.error failure) := by
  obtain ⟨desk', leads⟩ := first
  refine ⟨desk', fun page => ?_⟩
  obtain ⟨page', fails⟩ := leads page
  exact ⟨page', fails.bind_error⟩

theorem map (f : α → β) {result : Except Failure α} (tells : Tells work before desk result) :
    Tells (do return f (← work)) before desk (f <$> result) := by
  cases result with
  | error failure => exact tells.bind_error
  | ok a =>
    obtain ⟨desk', leads⟩ := tells
    refine ⟨desk', fun page => ?_⟩
    obtain ⟨page', last⟩ := leads page
    exact ⟨page', last.bind (leads_pure (f a))⟩

theorem get {next : Kernel → SessionM (StateM Desk) β} {same : SessionM (StateM Desk) β}
    {result : Except Failure β}
    (looks : ∀ kernel page, kernel.state.page = before page → next kernel = same)
    (rest : Tells same before desk result) : Tells (get >>= next) before desk result := by
  obtain ⟨desk', leads⟩ := rest
  refine ⟨desk', fun page => ?_⟩
  obtain ⟨page', last⟩ := leads page
  exact ⟨page', leads_get fun kernel shown => looks kernel page shown ▸ last⟩

end Tells

section Commands

variable {resource : Http.Resource} {script : Script} {page page' : Page} {desk : Desk}
variable {command : Command} {flow : Flow} {mutation : Mutation}

theorem ofExcept_ne_crashed {α : Type} (outcome : Except ApiError α) :
    Outcome.ofExcept outcome ≠ .crashed := by
  cases outcome <;> simp [Outcome.ofExcept]

theorem list_eq {outcome : Except ApiError (List Project)}
    (listed : Http.listed (script.answer (desk.requests ++ [resource.request .list])) = outcome) :
    (script.session resource).api.list desk =
      (.ofExcept outcome, desk.request (resource.request .list)) := by
  have read : (script.session resource).api.list desk =
      (.ofExcept (Http.listed (script.answer (desk.requests ++ [resource.request .list]))),
        desk.request (resource.request .list)) := rfl
  rw [read, listed]

theorem mutate_eq {outcome : Except ApiError Unit}
    (changed : Http.changed (script.answer (desk.requests ++ [resource.request mutation.call])) =
      outcome) :
    (script.session resource).api.mutate mutation desk =
      (.ofExcept outcome, desk.request (resource.request mutation.call)) := by
  have read : (script.session resource).api.mutate mutation desk =
      (.ofExcept (Http.changed (script.answer (desk.requests ++ [resource.request mutation.call]))),
        desk.request (resource.request mutation.call)) := rfl
  rw [read, changed]

theorem ask_refresh {outcome : Except ApiError (List Project)}
    (listed : Http.listed (script.answer (desk.requests ++ [resource.request .list])) = outcome) :
    Flow.refresh.ask (script.session resource).api desk =
      (.refreshed (.ofExcept outcome), desk.request (resource.request .list)) := by
  have read : Flow.refresh.ask (script.session resource).api desk =
      (.refreshed ((script.session resource).api.list desk).1,
        ((script.session resource).api.list desk).2) := rfl
  rw [read, list_eq listed]

theorem leads_refresh {projects : List Project}
    (accepted : ({ page } : Plain).accept command = ({ page }, some .refresh))
    (fetched : script.fetch (desk.requests ++ [resource.request .list]) = .ok projects) :
    Leads ((script.session resource).perform command) page desk (.ok ())
      { page with projects, status := none }
      ((desk.request (resource.request .list)).print (reports [.loading])) :=
  leads_flow accepted (ask_refresh (mapError_eq_ok.1 fetched)) (ofExcept_ne_crashed _)

theorem leads_refresh_error {failure : Failure}
    (accepted : ({ page } : Plain).accept command = ({ page }, some .refresh))
    (fetched : script.fetch (desk.requests ++ [resource.request .list]) = .error failure) :
    Leads ((script.session resource).perform command) page desk (.error failure)
      { page with status := some .loadFailed }
      ((desk.request (resource.request .list)).print (reports [.loading, .loadFailed])) := by
  obtain ⟨error, listed, rfl⟩ := mapError_eq_error.1 fetched
  exact leads_flow accepted (ask_refresh listed) (ofExcept_ne_crashed _)

theorem ask_changed {outcome : Except ApiError (List Project)}
    (own : flow.ask (script.session resource).api = mutation.ask (script.session resource).api)
    (made : script.change mutation (desk.requests ++ [resource.request mutation.call]) = .ok ())
    (listed : Http.listed (script.answer
      (desk.requests ++ [resource.request mutation.call] ++ [resource.request .list])) = outcome) :
    flow.ask (script.session resource).api desk =
      (.changed mutation (.ofExcept outcome),
        (desk.request (resource.request mutation.call)).request (resource.request .list)) := by
  rw [own, Mutation.ask_of_ok (mutate_eq (mapError_eq_ok.1 made)), list_eq listed]

theorem leads_make {projects : List Project}
    (accepted : ({ page } : Plain).accept command = ({ page := page' }, some flow))
    (own : flow.ask (script.session resource).api = mutation.ask (script.session resource).api)
    (made : script.make resource mutation desk.requests = .ok projects) :
    Leads ((script.session resource).perform command) page desk (.ok ())
      { page' with projects, status := none }
      (((desk.request (resource.request mutation.call)).request (resource.request .list)).print
        (reports [mutation.status true, .loading])) := by
  obtain ⟨changed, fetched⟩ := Script.make_eq_ok.1 made
  exact leads_flow accepted (ask_changed own changed (mapError_eq_ok.1 fetched))
    (ofExcept_ne_crashed _)

theorem tells_make_error {failure : Failure} {before after : Page → Page}
    (accepted : ∀ page, ({ page := before page } : Plain).accept command =
      ({ page := after page }, some flow))
    (own : flow.ask (script.session resource).api = mutation.ask (script.session resource).api)
    (made : script.make resource mutation desk.requests = .error failure) :
    Tells ((script.session resource).perform command) before desk (.error failure) := by
  cases changed : script.change mutation (desk.requests ++ [resource.request mutation.call]) with
  | error reason =>
    obtain rfl : reason = failure := by
      rw [Script.make, changed] at made
      exact Except.error.inj made
    obtain ⟨error, refused, rfl⟩ := mapError_eq_error.1 changed
    have asked := Mutation.ask_of_failed (mutate_eq refused)
    rw [← own] at asked
    cases mutation <;> exact .intro fun page => leads_flow (accepted page) asked trivial
  | ok =>
    have fetched : script.fetch
        (desk.requests ++ [resource.request mutation.call] ++ [resource.request .list]) =
          .error failure := by
      rw [Script.make, changed] at made
      exact made
    obtain ⟨error, listed, rfl⟩ := mapError_eq_error.1 fetched
    have asked := ask_changed own changed listed
    exact .intro fun page => leads_flow (accepted page) asked (ofExcept_ne_crashed _)

/-! ## Jobs -/

theorem find?_mem {projects : List Project} {text : String} {project : Project}
    (h : find? projects text = some project) : project ∈ projects := by
  rcases Option.or_eq_some_iff.1 h with first | ⟨_, second⟩
  · exact List.mem_of_find?_eq_some first
  · exact List.mem_of_find?_eq_some second

theorem exists_deleteTarget? (projects : List Project) {project : Project}
    (listed : project ∈ projects) :
    ∃ target, ({ projects } : State).deleteTarget? project.id = some target ∧
      target.id = project.id := by
  have any : (projects.find? (·.id = project.id)).isSome :=
    List.find?_isSome.2 ⟨project, listed, decide_eq_true rfl⟩
  obtain ⟨first, found⟩ := Option.isSome_iff_exists.1 any
  have same : first.id = project.id := by simpa using List.find?_some found
  refine ⟨⟨first.id, first.name⟩, ?_, same⟩
  rw [State.deleteTarget?, found]
  rfl

theorem tells_list (withSteps : Bool) :
    Tells ((script.session resource).list withSteps) id {}
      (ListView.ofProjects <$> script.fetch [resource.request .list]) := by
  cases fetched : script.fetch [resource.request .list] with
  | error failure =>
    apply Tells.bind_error
    exact .intro fun page => leads_refresh_error rfl fetched
  | ok projects =>
    apply Tells.intro
    intro page
    exact (leads_refresh rfl fetched).bind (leads_printList projects rfl withSteps)

theorem accept_createProject {name : String} (named : ¬ Text.IsBlank name) (page : Page) :
    ({ page } : Plain).accept (.createProject name) =
      ({ page := { page with createDraft := "" } }, some (.create (Text.trim name))) := by
  have submitted : (page.state.editDraft fun _ => name).submitDraft =
      ((page.state.editDraft fun _ => name).apply .createDraftSubmitted,
        some (.create (Text.trim name))) := if_neg named
  simp only [Plain.accept, State.accept, submitted]
  rfl

theorem tells_create (name : String) :
    Tells ((script.session resource).create name) id {}
      (if Text.IsBlank name then .error .blankName
      else ListView.ofProjects <$> script.make resource (.create (Text.trim name)) []) := by
  by_cases blank : Text.IsBlank name
  · rw [if_pos blank, create, if_pos blank]
    exact .intro fun page => leads_throw _
  · rw [if_neg blank, create, if_neg blank]
    have own : (Flow.create (Text.trim name)).ask (script.session resource).api =
        (Mutation.create (Text.trim name)).ask (script.session resource).api := rfl
    cases made : script.make resource (.create (Text.trim name)) [] with
    | error failure =>
      exact .bind_error (tells_make_error (accept_createProject blank) own made)
    | ok projects =>
      apply Tells.intro
      intro page
      exact (leads_make (accept_createProject blank page) own made).bind
        (leads_printList projects rfl false)

theorem leads_confirm {outcome : Except Failure Bool} (confirmed : script.confirmed = outcome)
    (question : String) {page : Page} {desk : Desk} :
    Leads (ExceptT.mk (StateT.lift (script.confirm question))) page desk outcome page
      (desk.ask question) := by
  subst confirmed
  exact fun kernel mirrors => ⟨kernel, mirrors, rfl⟩

def whenAnswered (session : Session (StateM Desk)) (isConfirmed : Bool) :
    SessionM (StateM Desk) Bool := do
  if isConfirmed then
    session.perform .confirmDelete
    let _ ← session.printList false
    return true
  else
    session.perform .cancelDelete
    session.say "Aborted.\n"
    return false

def whenFound (session : Session (StateM Desk)) (text : String)
    (confirm : String → StateM Desk (Except Failure Bool)) (project : Project) :
    SessionM (StateM Desk) Bool := do
  session.perform (.requestDelete project.id)
  match (← get).state.confirmView with
  | none => throw (.unlisted text)
  | some view => ExceptT.mk (StateT.lift (confirm view.prompt)) >>= whenAnswered session

def asking (target : PendingDelete) (projects : List Project) (page : Page) : Page :=
  { page with projects, status := none, pendingDelete := some target }

/-- From its question on, a delete has the result of the user's answer and of the server's. -/
theorem tells_answered (target : PendingDelete) (projects : List Project) (desk : Desk) :
    Tells
      (ExceptT.mk (StateT.lift (script.confirm target.prompt)) >>=
        whenAnswered (script.session resource))
      (asking target projects) desk (script.deleteProject resource target.id desk.requests) := by
  have accepted (page : Page) : ({ page := asking target projects page } : Plain).accept
      .confirmDelete =
        ({ page := { asking target projects page with pendingDelete := none } },
          some (.delete target)) := rfl
  have own : (Flow.delete target).ask (script.session resource).api =
      (Mutation.delete target.id).ask (script.session resource).api := rfl
  rw [Script.deleteProject]
  cases confirmed : script.confirmed with
  | error failure => exact .bind_error (.intro fun page => leads_confirm confirmed _)
  | ok isConfirmed =>
    refine .bind (fun page => leads_confirm confirmed _) ?_
    cases isConfirmed with
    | false =>
      have declined (page : Page) : ({ page := asking target projects page } : Plain).accept
          .cancelDelete =
            ({ page := { asking target projects page with pendingDelete := none } }, none) := rfl
      refine .bind (fun page => leads_at_once (declined page)) (.bind (fun page => leads_say _) ?_)
      exact .intro fun page => leads_pure false
    | true =>
      cases made : script.make resource (.delete target.id) desk.requests with
      | error failure => exact .bind_error (tells_make_error accepted own made)
      | ok projects' =>
        refine .bind (fun page => leads_make (accepted page) own made)
          (.bind (fun page => leads_printList projects' rfl false) ?_)
        exact .intro fun page => leads_pure true

theorem leads_request {projects : List Project} {target : PendingDelete} {id : String}
    (first : ({ projects } : State).deleteTarget? id = some target) (page : Page) (desk : Desk) :
    Leads ((script.session resource).perform (.requestDelete id))
      { page with projects, status := none } desk (.ok ()) (asking target projects page)
      (desk.print (reports [])) := by
  refine leads_at_once ?_
  have requested : ({ page with projects, status := none } : Page).state.deleteTarget? id =
      some target := first
  simp only [Plain.accept, State.accept, requested]
  rfl

theorem confirmView_of_asking {kernel : Kernel} {target : PendingDelete} {projects : List Project}
    {page : Page} (shown : kernel.state.page = asking target projects page) :
    kernel.state.confirmView = some ⟨target.id, "Delete project", target.prompt⟩ := by
  have pending : kernel.state.pendingDelete = some target := congrArg Page.pendingDelete shown
  rw [State.confirmView, pending]
  rfl

theorem tells_found (text : String) {projects : List Project} {project : Project}
    (listed : project ∈ projects) (desk : Desk) :
    Tells (whenFound (script.session resource) text script.confirm project)
      (fun page => { page with projects, status := none }) desk
      (script.deleteProject resource project.id desk.requests) := by
  -- Only the id goes to the server.
  obtain ⟨target, first, same⟩ := exists_deleteTarget? projects listed
  rw [← same]
  have answered : Tells _ (asking target projects) (desk.print (reports []))
      (script.deleteProject resource target.id desk.requests) := tells_answered target projects _
  refine .bind (fun page => leads_request (same ▸ first) page desk) (.get ?_ answered)
  intro kernel page shown
  rw [confirmView_of_asking shown]

theorem tells_delete (text : String) :
    Tells ((script.session resource).delete text script.confirm) id {}
      (script.fetch [resource.request .list] >>= script.deleteFrom resource text) := by
  cases fetched : script.fetch [resource.request .list] with
  | error failure => exact .bind_error (.intro fun page => leads_refresh_error rfl fetched)
  | ok projects =>
    refine .bind (fun page => leads_refresh rfl fetched) ?_
    show Tells _ _ _ (script.deleteFrom resource text projects)
    cases found : find? projects text with
    | none =>
      rw [Script.deleteFrom, found]
      refine .get (fun kernel page shown => ?_) (.intro fun page => leads_throw _)
      have listed : kernel.state.projects = projects := congrArg Page.projects shown
      rw [listed, found]
    | some project =>
      rw [Script.deleteFrom, found]
      refine .get ?_ (tells_found text (find?_mem found) _)
      intro kernel page shown
      have listed : kernel.state.projects = projects := congrArg Page.projects shown
      rw [listed, found]
      rfl

end Commands

section Jobs

variable (resource : Http.Resource) (script : Script)

theorem Job.tells (job : Job) :
    Tells (job.work resource script) id {} (job.result resource script) := by
  cases job with
  | list withSteps => exact (tells_list withSteps).map Returned.view
  | create name => exact (tells_create name).map Returned.view
  | delete text => exact (tells_delete text).map Returned.sent

/-- On every kernel that is at rest a command has the same result, the same comes out, and the
kernel is at rest again. -/
theorem Job.run_of_mirrors (job : Job) :
    ∃ desk, ∀ kernel page, kernel.Mirrors { page } →
      (job.run resource script kernel).1.1 = job.result resource script ∧
      (job.run resource script kernel).2 = desk ∧
      ∃ page', (job.run resource script kernel).1.2.Mirrors { page := page' } := by
  obtain ⟨desk, leads⟩ := job.tells resource script
  refine ⟨desk, fun kernel page mirrors => ?_⟩
  obtain ⟨page', last⟩ := leads page
  obtain ⟨kernel', mirrors', ran⟩ := last kernel mirrors
  rw [run, ran]
  exact ⟨rfl, rfl, page', mirrors'⟩

theorem kernelAfter_mirrors (past : List (Job × Script)) :
    ∃ page, (kernelAfter resource past).Mirrors { page } := by
  rw [kernelAfter]
  generalize start : ({} : Kernel) = kernel
  have resting : ∃ page, kernel.Mirrors { page } := ⟨{}, start ▸ Kernel.mirrors_initial⟩
  clear start
  induction past generalizing kernel with
  | nil => exact resting
  | cons done past ih =>
    obtain ⟨page, mirrors⟩ := resting
    obtain ⟨desk, run⟩ := done.1.run_of_mirrors resource done.2
    exact ih _ (run kernel page mirrors).2.2

end Jobs

end ProjectClient.Session

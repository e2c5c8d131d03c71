import ProjectClient.Proofs.Kernel.Draft
import ProjectClient.Proofs.Session.Tells

/-! Everybody who looks whether a name is blank comes to the same result: the screen that offers a
submission, the kernel that takes it, and the command that creates a project at once. -/
namespace ProjectClient.Session

variable {resource : Http.Resource} {script : Script}

theorem requests_behind (calls : List Call) (desk : Desk) :
    (calls.foldl (script.session resource).api.behind desk).requests =
      desk.requests ++ calls.map resource.request := by
  induction calls generalizing desk with
  | nil => exact (List.append_nil _).symm
  | cons call calls ih =>
    have made : ((script.session resource).api.behind desk call).requests =
        desk.requests ++ [resource.request call] := by
      cases call with
      | list => rw [Api.behind, list_eq rfl]; rfl
      | create name => rw [Api.behind, mutate_eq rfl]; rfl
      | delete id => rw [Api.behind, mutate_eq rfl]; rfl
    rw [List.foldl_cons, ih, made, List.append_assoc]
    rfl

theorem accept_createProject_eq (state : State) (name : String) :
    (state.accept (.createProject name)).2 =
      if Text.IsBlank name then none else some (.create (Text.trim name)) := by
  show ((state.editDraft fun _ => name).submitDraft).2 = _
  rw [State.submitDraft]
  exact apply_ite Prod.snd _ _ _

theorem yields_requests (command : Command) (kernel : Kernel) (desk : Desk) :
    Yields ((script.session resource).perform command) kernel desk
      (fun _ _ desk' => desk'.requests =
        (kernel.execute (script.session resource).api command desk).2.requests)
      (fun _ desk' => desk'.requests =
        (kernel.execute (script.session resource).api command desk).2.requests) := by
  rcases ran : kernel.execute (script.session resource).api command desk with
    ⟨⟨kernel', trail?⟩, desk'⟩
  exact yields_perform ran (fun _ => rfl) (fun _ _ _ _ => rfl) fun _ _ _ => rfl

theorem yields_create {name : String} (visible : ¬ Text.IsBlank name) {kernel : Kernel} {desk : Desk}
    {requests : List Http.Request}
    (performed : Yields ((script.session resource).perform (.createProject name)) kernel desk
      (fun _ _ desk' => desk'.requests = requests) (fun _ desk' => desk'.requests = requests)) :
    Yields ((Job.create name).work resource script) kernel desk
      (fun _ _ desk' => desk'.requests = requests) (fun _ desk' => desk'.requests = requests) := by
  have created : Yields ((script.session resource).create name) kernel desk
      (fun _ _ desk' => desk'.requests = requests) (fun _ desk' => desk'.requests = requests) := by
    rw [create, if_neg visible]
    exact .bind performed (fun _ _ => id) fun _ _ _ same =>
      yields_of_ok rfl ((Desk.requests_print _ _).trans same)
  exact .bind created (fun _ _ => id) fun _ _ _ same => yields_of_ok rfl same

variable (resource script)

theorem run_create_of_isBlank {name : String} (blank : Text.IsBlank name) (kernel : Kernel) :
    (Job.create name).run resource script kernel = ((.error .blankName, kernel), {}) := by
  have stops : (script.session resource).create name = throw .blankName := if_pos blank
  rw [Job.run, Job.work, stops]
  rfl

theorem requests_execute_of_isBlank {name : String} (blank : Text.IsBlank name) (kernel : Kernel) :
    (kernel.execute (script.session resource).api (.createProject name) {}).2.requests = [] := by
  have starts := accept_createProject_eq kernel.state name
  rw [if_pos blank] at starts
  rcases accepted : kernel.state.accept (.createProject name) with ⟨state, flow?⟩
  rw [accepted] at starts
  cases starts
  rw [Kernel.execute, accepted]
  rfl

/-- The call is made with the trimmed name, and what follows only fetches the list. -/
theorem exists_requests_execute {name : String} (visible : ¬ Text.IsBlank name) (kernel : Kernel) :
    ∃ count, (kernel.execute (script.session resource).api (.createProject name) {}).2.requests =
      resource.request (.create (Text.trim name)) ::
        List.replicate count (resource.request .list) := by
  have starts := accept_createProject_eq kernel.state name
  rw [if_neg visible] at starts
  rcases accepted : kernel.state.accept (.createProject name) with ⟨state, flow?⟩
  rw [accepted] at starts
  cases starts
  obtain ⟨count, calls⟩ := Kernel.exists_calls_execute (script.session resource).api accepted {}
  refine ⟨count, ?_⟩
  rw [calls, requests_behind, List.map_cons, List.map_replicate]
  rfl

theorem requests_create {name : String} (visible : ¬ Text.IsBlank name) (kernel : Kernel) :
    ((Job.create name).run resource script kernel).2.requests =
      (kernel.execute (script.session resource).api (.createProject name) {}).2.requests :=
  (yields_create visible (yields_requests (.createProject name) kernel {})).always

/-- The screen offers a submission if and only if the draft is not blank, and then the kernel takes
it. However the submission is given and whatever moves come after it, as long as none of them writes
into the draft, the draft is empty from then on, and one call goes out for its trimmed text and no
other one. Where the screen offers no submission, to dispatch one changes nothing at all, and to
execute one is a tick. The command that creates a project at once fails without a request for the
same names for which the kernel makes no call. -/
theorem draft_submitted_once (kernel : Kernel) (log : List Happening) :
    let draft := kernel.state.createDraft
    let name := Text.trim draft
    let client : Client := { kernel, log }
    (kernel.state.view.canSubmitCreate = true ↔
      ∃ flow, (kernel.state.accept .submitCreate).2 = some flow) ∧
    (kernel.state.view.canSubmitCreate = true →
      (kernel.state.accept .submitCreate).2 = some (.create name) ∧ name ≠ "" ∧
      (∃ front back, draft.toList = front ++ name.toList ++ back ∧
        (∀ c ∈ front, Text.isBlank c) ∧ (∀ c ∈ back, Text.isBlank c) ∧
        (∀ c ∈ name.toList.head?, ¬ Text.isBlank c) ∧
        ∀ c ∈ name.toList.getLast?, ¬ Text.isBlank c) ∧
      (∀ move moves last, move = .dispatch .submitCreate ∨ move = .execute .submitCreate →
        client.performAll? (move :: moves) = some last → (∀ move ∈ moves, ¬ move.WritesDraft) →
          last.kernel.state.createDraft = "" ∧ last.kernel.state.view.canSubmitCreate = false ∧
          ∀ other, last.created other = client.created other + if other = name then 1 else 0) ∧
      ∀ {σ : Type} (api : Api (StateM σ)) (server : σ), ∃ count,
        (kernel.execute api .submitCreate server).2 =
          (.create name :: List.replicate count .list).foldl api.behind server) ∧
    (kernel.state.view.canSubmitCreate = false →
      kernel.dispatch .submitCreate = kernel ∧
      ∀ {σ : Type} (api : Api (StateM σ)),
        kernel.execute api .submitCreate = pure (kernel.tick.1, some kernel.tick.2)) ∧
    ∀ (resource : Http.Resource) (script : Script) (proposed : String),
      let outcome := (Job.create proposed).run resource script kernel
      let executed :=
        (kernel.execute (script.session resource).api (.createProject proposed) {}).2.requests
      ((∃ failure, outcome.1.1 = .error failure) ∧ outcome.2.requests = [] ↔ executed = []) ∧
      (executed ≠ [] → ∃ count, outcome.2.requests =
        resource.request (.create (Text.trim proposed)) ::
          List.replicate count (resource.request .list)) := by
  intro draft name client
  refine ⟨State.canSubmitCreate_iff_accept, ?_, ?_, ?_⟩
  · intro offered
    have visible := State.canSubmitCreate_iff.1 offered
    have accepted := State.accept_submitCreate visible
    have trimmed : Text.trim draft = name := rfl
    refine ⟨congrArg Prod.snd accepted, visible, Text.trim_eq_iff.1 trimmed, ?_, ?_⟩
    · intro move moves last submits run leave
      have taken : ¬ Text.IsBlank client.kernel.state.createDraft := visible
      obtain ⟨empty, created⟩ := Client.created_of_submit taken submits run leave
      refine ⟨empty, State.canSubmitCreate_eq_false_iff.2 ?_, created⟩
      rw [empty]
      decide
    · intro σ api server
      exact Kernel.exists_calls_execute api accepted server
  · intro idle
    have accepted :=
      State.accept_submitCreate_of_isBlank (State.canSubmitCreate_eq_false_iff.1 idle)
    refine ⟨?_, fun api => ?_⟩
    · rw [Kernel.dispatch, accepted]
      rfl
    · rw [Kernel.execute, accepted]
  · intro resource script proposed outcome executed
    by_cases blank : Text.IsBlank proposed
    · have nothing : executed = [] := requests_execute_of_isBlank resource script blank kernel
      have stops : outcome = ((.error .blankName, kernel), {}) :=
        run_create_of_isBlank resource script blank kernel
      rw [stops]
      exact ⟨⟨fun _ => nothing, fun _ => ⟨⟨_, rfl⟩, rfl⟩⟩, absurd nothing⟩
    · have same : outcome.2.requests = executed := requests_create resource script blank kernel
      obtain ⟨count, sent⟩ := exists_requests_execute resource script blank kernel
      have requests : executed = _ := sent
      rw [same, requests]
      refine ⟨⟨fun silent => ?_, fun silent => ?_⟩, fun _ => ⟨count, rfl⟩⟩
      · cases silent.2
      · cases silent

/-- The call is refused, and the draft does not come back. The second submission finds none. -/
theorem draft_submitted_once_of_refused :
    let kernel : Kernel := { state := { createDraft := " Foo " } }
    let moves := [.advance (some 0), .answer (some 0) (.failed (.http 500)), .advance (some 0),
      .receive, .execute .submitCreate, .conclude]
    kernel.state.view.canSubmitCreate = true ∧
    ∃ last, Client.performAll? { kernel } (.dispatch .submitCreate :: moves) = some last ∧
      last.created "Foo" = 1 ∧ last.kernel.state.status = some .createFailed ∧
      last.kernel.state.view.canSubmitCreate = false ∧
      last.kernel.dispatch .submitCreate = last.kernel := by
  intro kernel moves
  have offered : kernel.state.view.canSubmitCreate = true := by decide
  have ends : (Client.performAll? { kernel } (.dispatch .submitCreate :: moves)).map
      (·.kernel.state.status) = some (some .createFailed) := by decide +kernel
  obtain ⟨last, run, failed⟩ := Option.map_eq_some_iff.1 ends
  have leave : ∀ move ∈ moves, ¬ move.WritesDraft := by simp [moves, Move.WritesDraft]
  obtain ⟨-, -, -, submitted, -⟩ := (draft_submitted_once kernel []).2.1 offered
  obtain ⟨-, idle, created⟩ := submitted _ moves last (.inl rfl) run leave
  have counted : Client.created { kernel } "Foo" +
      (if "Foo" = Text.trim kernel.state.createDraft then 1 else 0) = 1 := by decide +kernel
  exact ⟨offered, last, run, (created "Foo").trans counted, failed, idle,
    ((draft_submitted_once last.kernel []).2.2.1 idle).1⟩

/-- A refresh has sent its first event. A submission without a draft takes it if it is executed. -/
theorem blank_submission_ticks :
    let api : Api Id := { list := .ok [], mutate := fun _ => .ok () }
    ∃ client, Client.performAll? {} [.dispatch .refresh, .advance (some 0), .advance (some 0)] =
        some client ∧
      client.kernel.state.view.canSubmitCreate = false ∧
      (client.kernel.execute api .submitCreate).1.state ≠ client.kernel.state ∧
      (client.kernel.execute api .submitCreate).1.outbox.channel.queue ≠
        client.kernel.outbox.channel.queue :=
  ⟨_, rfl, by decide, by decide, by decide⟩

end ProjectClient.Session

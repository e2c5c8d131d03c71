import ProjectClient.Proofs.Kernel.Sides
import ProjectClient.Proofs.Session.Tells
import ProjectClient.Proofs.Wire.Encode

/-! What a delete leaves behind. It takes its request back or uses it up, unless the question to the
user fails: then the request stays, and the next confirmation deletes what nobody affirmed. -/
namespace ProjectClient

/-- The user's answer about this delete is waited for, or about none. The channel holds nothing but
reports of flows. -/
structure Kernel.Asks (kernel : Kernel) (pending : Option PendingDelete) : Prop where
  pending : kernel.state.pendingDelete = pending
  reports : ∀ event ∈ kernel.outbox.channel.queue, event.report? ≠ none

theorem State.pendingDelete_applyAll {state : State} {events : List Event}
    (reports : ∀ event ∈ events, event.report? ≠ none) :
    (state.applyAll events).pendingDelete = state.pendingDelete := by
  induction events generalizing state with
  | nil => rfl
  | cons event events ih =>
    rw [List.forall_mem_cons] at reports
    exact (ih reports.2).trans (pendingDelete_apply reports.1)

theorem State.pendingDelete_answered (state : State) {command : Command}
    (answers : command = .confirmDelete ∨ command = .cancelDelete) :
    (state.accept command).1.pendingDelete = none := by
  refine Option.eq_none_iff_forall_ne_some.2 fun target waits => ?_
  rcases pendingDelete_accept waits with ⟨rfl, -⟩ | ⟨-, notConfirm, notCancel⟩
  · exact answers.elim nofun nofun
  · exact answers.elim notConfirm notCancel

section Running

variable {σ : Type} {api : Api (StateM σ)} {server server' : σ}

theorem Stage.reports_run {stage stage' : Stage} {outbox outbox' : Outbox}
    (ran : stage.run api outbox server = ((stage', outbox'), server'))
    (reports : ∀ event ∈ outbox.channel.queue, event.report? ≠ none) :
    ∀ event ∈ outbox'.channel.queue, event.report? ≠ none :=
  run_keeps (fun _ outbox _ => ∀ event ∈ outbox.channel.queue, event.report? ≠ none)
    (fun moved reports event queued =>
      (queue_of_advance? moved event queued).elim (reports event) id) id id reports ran

variable {kernel kernel' : Kernel} {command : Command}

theorem Kernel.Asks.tick {pending : Option PendingDelete} (asks : kernel.Asks pending) :
    kernel.tick.1.Asks pending := by
  rw [Client.tick_fst]
  exact ⟨(State.pendingDelete_applyAll asks.reports).trans asks.pending, nofun⟩

/-- Only what a command does at once touches the question. -/
theorem Kernel.asks_execute (reports : ∀ event ∈ kernel.outbox.channel.queue, event.report? ≠ none) :
    (kernel.execute api command server).1.1.Asks (kernel.state.accept command).1.pendingDelete := by
  have executed := kernel.executes api command server
  generalize kernel.execute api command server = ended at executed ⊢
  cases executed with
  | atOnce accepted =>
    rw [accepted]
    exact Asks.tick ⟨rfl, reports⟩
  | whole accepted ran =>
    rw [accepted]
    exact Asks.tick ⟨rfl, Stage.reports_run ran reports⟩
  | unfinished accepted ran =>
    rw [accepted]
    exact ⟨rfl, Stage.reports_run ran reports⟩

theorem Kernel.queue_of_execute {trail : List Status}
    (ended : kernel.execute api command server = ((kernel', some trail), server')) :
    kernel'.outbox.channel.queue = [] := by
  have executed := kernel.executes api command server
  rw [ended] at executed
  cases executed <;> rfl

end Running

/-! ## Later commands -/

namespace Client

variable {client next : Client} {move : Move}

theorem asks_none_of_perform? (asks : client.kernel.Asks none)
    (request : ∀ id, move.command? ≠ some (.requestDelete id))
    (moved : client.perform? move = some next) : next.kernel.Asks none := by
  refine ⟨?_, fun event queued => ?_⟩
  · rcases state_of_perform? moved with
      ⟨command, given, state⟩ | ⟨event, queued, state⟩ | ⟨edit, -, state⟩ | state
    · refine Option.eq_none_iff_forall_ne_some.2 fun target waits => ?_
      rw [state] at waits
      rcases State.pendingDelete_accept waits with ⟨rfl, -⟩ | ⟨old, -⟩
      · exact request _ given
      · cases asks.pending.symm.trans old
    · rw [state, State.pendingDelete_apply (asks.reports event queued), asks.pending]
    · rw [state]
      exact asks.pending
    · rw [state, asks.pending]
  · exact (event?_of_perform? moved event queued).elim (asks.reports event)
      fun ⟨_, _, _, _, own⟩ => Stage.report?_of_event? own

end Client

namespace Session

/-! ## Commands -/

structure IsCalm (kernel : Kernel) : Prop where
  empty : kernel.outbox.channel.queue = []
  fine : verdict kernel.state.status = .ok ()

variable {resource : Http.Resource} {script : Script}

theorem asked_execute (kernel : Kernel) (command : Command) (desk : Desk) :
    (kernel.execute (script.session resource).api command desk).2.asked = desk.asked := by
  have kept {stage stage' : Stage} {outbox : Outbox} {desk' : Desk}
      (ran : stage.run (script.session resource).api kernel.outbox desk =
        ((stage', outbox), desk')) : desk'.asked = desk.asked :=
    Stage.run_keeps (fun _ _ (later : Desk) => later.asked = desk.asked) (fun _ before => before)
      (fun before => by rw [mutate_eq rfl]; exact before)
      (fun before => by rw [list_eq rfl]; exact before) rfl ran
  have executed := kernel.executes (script.session resource).api command desk
  generalize kernel.execute (script.session resource).api command desk = ended at executed ⊢
  cases executed with
  | atOnce => rfl
  | whole accepted ran | unfinished accepted ran => exact kept ran

theorem yields_asks {kernel : Kernel} {command : Command} {desk : Desk}
    {pending : Option PendingDelete}
    (reports : ∀ event ∈ kernel.outbox.channel.queue, event.report? ≠ none)
    (accepts : (kernel.state.accept command).1.pendingDelete = pending) :
    Yields ((script.session resource).perform command) kernel desk
      (fun _ kernel' desk' => kernel'.Asks pending ∧ desk'.asked = desk.asked ∧ IsCalm kernel')
      (fun kernel' desk' => kernel'.Asks pending ∧ desk'.asked = desk.asked) := by
  have asks : (kernel.execute (script.session resource).api command desk).1.1.Asks _ :=
    Kernel.asks_execute reports
  have asked : (kernel.execute (script.session resource).api command desk).2.asked = desk.asked :=
    asked_execute kernel command desk
  rcases ran : kernel.execute (script.session resource).api command desk with
    ⟨⟨kernel', trail?⟩, desk'⟩
  rw [ran, accepts] at asks
  rw [ran] at asked
  refine yields_perform ran (fun _ => ⟨asks, asked⟩) (fun _ _ _ _ => ⟨asks, asked⟩) ?_
  rintro trail rfl fine
  exact ⟨asks, asked, Kernel.queue_of_execute ran, fine⟩

theorem yields_request {kernel : Kernel} {pending : Option PendingDelete} (asks : kernel.Asks pending)
    (calm : IsCalm kernel) (id : String) (desk : Desk) :
    Yields ((script.session resource).perform (.requestDelete id)) kernel desk
      (fun _ kernel' desk' => (∃ pending, kernel'.Asks pending) ∧ desk'.asked = desk.asked)
      (fun _ _ => False) := by
  obtain ⟨state, accepted, shown⟩ : ∃ state, kernel.state.accept (.requestDelete id) =
      (state, none) ∧ state.status = kernel.state.status := by
    simp only [State.accept]
    split <;> exact ⟨_, rfl, rfl⟩
  have ran : kernel.execute (script.session resource).api (.requestDelete id) desk =
      (({ kernel with state }.tick.1, some { kernel with state }.tick.2), desk) := by
    rw [Kernel.execute, accepted]
    rfl
  have still : ({ kernel with state } : Kernel).tick.1.state = state := by
    rw [Client.tick_fst, calm.empty]
    rfl
  have reports : ({ kernel with state } : Kernel).Asks state.pendingDelete := ⟨rfl, asks.reports⟩
  have performed := run_perform_eq ran
  rw [still, shown, calm.fine] at performed
  exact yields_of_ok performed ⟨⟨_, reports.tick⟩, rfl⟩

theorem yields_confirm (kernel : Kernel) (question : String) (desk : Desk) :
    Yields (ExceptT.mk (StateT.lift (script.confirm question))) kernel desk
      (fun isConfirmed kernel' desk' => script.confirmed = .ok isConfirmed ∧
        kernel' = kernel ∧ desk' = desk.ask question)
      (fun kernel' desk' => (∃ failure, script.confirmed = .error failure) ∧
        kernel' = kernel ∧ desk' = desk.ask question) := by
  have ran : (ExceptT.mk (StateT.lift (script.confirm question))).run.run kernel desk =
      ((script.confirmed, kernel), desk.ask question) := rfl
  cases confirmed : script.confirmed with
  | error failure =>
    rw [confirmed] at ran
    exact yields_of_error ran ⟨⟨failure, rfl⟩, rfl, rfl⟩
  | ok isConfirmed =>
    rw [confirmed] at ran
    exact yields_of_ok ran ⟨rfl, rfl, rfl⟩

def Rests (script : Script) (kernel : Kernel) (desk : Desk) : Prop :=
  (kernel.Asks none ∧ (desk.asked = [] ∨ ∀ failure, script.confirmed ≠ .error failure)) ∨
    ∃ target failure, kernel.Asks (some target) ∧ desk.asked = [target.prompt] ∧
      script.confirmed = .error failure

theorem yields_answered {kernel : Kernel} {pending : Option PendingDelete}
    (asks : kernel.Asks pending) {isConfirmed : Bool} (confirmed : script.confirmed = .ok isConfirmed)
    (desk : Desk) :
    Yields (whenAnswered (script.session resource) isConfirmed) kernel desk (fun _ => Rests script)
      (Rests script) := by
  have rests {kernel : Kernel} (closed : kernel.Asks none) (desk : Desk) : Rests script kernel desk :=
    .inl ⟨closed, .inr fun failure failed => by cases confirmed.symm.trans failed⟩
  cases isConfirmed with
  | true =>
    refine .bind (yields_asks asks.reports (kernel.state.pendingDelete_answered (.inl rfl)))
      (fun _ _ closed => rests closed.1 _) fun _ _ _ closed => ?_
    exact yields_of_ok rfl (rests closed.1 _)
  | false =>
    refine .bind (yields_asks asks.reports (kernel.state.pendingDelete_answered (.inr rfl)))
      (fun _ _ closed => rests closed.1 _) fun _ _ _ closed => ?_
    exact yields_of_ok rfl (rests closed.1 _)

theorem yields_found {kernel : Kernel} (asks : kernel.Asks none) (calm : IsCalm kernel) {desk : Desk}
    (silent : desk.asked = []) (text : String) (project : Project) :
    Yields (whenFound (script.session resource) text script.confirm project) kernel desk
      (fun _ => Rests script) (Rests script) := by
  refine .bind (yields_request asks calm project.id desk) (fun _ _ => False.elim) ?_
  rintro ⟨⟩ kernel' desk' ⟨⟨pending, asks'⟩, same⟩
  refine yields_get ?_
  rw [State.confirmView, asks'.pending]
  cases pending with
  | none => exact yields_of_error rfl (.inl ⟨asks', .inl (same.trans silent)⟩)
  | some target =>
    refine .bind (yields_confirm kernel' target.prompt desk') ?_ ?_
    · rintro _ _ ⟨⟨failure, failed⟩, rfl, rfl⟩
      refine .inr ⟨target, failure, asks', ?_, failed⟩
      rw [Desk.ask, same, silent]
      rfl
    · rintro isConfirmed _ _ ⟨confirmed, rfl, rfl⟩
      exact yields_answered asks' confirmed _

theorem yields_delete {kernel : Kernel} (asks : kernel.Asks none) {desk : Desk}
    (silent : desk.asked = []) (text : String) :
    Yields ((script.session resource).delete text script.confirm) kernel desk
      (fun _ => Rests script) (Rests script) := by
  refine .bind (yields_asks asks.reports asks.pending) ?_ ?_
  · rintro _ _ ⟨asks', same⟩
    exact .inl ⟨asks', .inl (same.trans silent)⟩
  · rintro ⟨⟩ kernel' desk' ⟨asks', same, calm⟩
    refine yields_get ?_
    cases find? kernel'.state.projects text with
    | none => exact yields_of_error rfl (.inl ⟨asks', .inl (same.trans silent)⟩)
    | some project => exact yields_found asks' calm (same.trans silent) text project

/-- A delete that starts without a request leaves none, and then no confirmation deletes anything
before the user makes a request. Only if it asks the user and the question fails, its own request
stays, and the next confirmation deletes the project that nobody affirmed. -/
theorem request_stays_where_question_fails (resource : Http.Resource) (script : Script)
    (text : String) {kernel : Kernel} (idle : kernel.state.pendingDelete = none)
    (reports : ∀ event ∈ kernel.outbox.channel.queue, event.report? ≠ none) :
    let outcome := (Job.delete text).run resource script kernel
    let left := outcome.1.2
    let asked := outcome.2.asked
    ((asked = [] ∨ ∀ failure, script.confirmed ≠ .error failure) →
      left.state.pendingDelete = none ∧
      ∀ moves client, Client.performAll? { kernel := left } moves = some client →
        (∀ move ∈ moves, ∀ id, move.command? ≠ some (.requestDelete id)) →
          (client.kernel.state.accept .confirmDelete).2 = none) ∧
    (∀ failure, asked ≠ [] → script.confirmed = .error failure →
      ∃ target, left.state.pendingDelete = some target ∧ asked = [target.prompt] ∧
        (left.state.accept .confirmDelete).2 = some (.delete target)) := by
  intro outcome left asked
  have whole : Yields ((Job.delete text).work resource script) kernel {} (fun _ => Rests script)
      (Rests script) :=
    .bind (yields_delete ⟨idle, reports⟩ rfl text) (fun _ _ => id) fun _ _ _ rests =>
      yields_of_ok rfl rests
  have rests : Rests script left outcome.2 := whole.always
  rcases rests with ⟨closed, settled⟩ | ⟨target, failure, asks, prompts, failed⟩
  · refine ⟨fun _ => ⟨closed.pending, fun moves client run request => ?_⟩, ?_⟩
    · have still : client.kernel.Asks none :=
        Client.performAll?_keeps (fun client => client.kernel.Asks none)
          (fun move among asks => Client.asks_none_of_perform? asks (request move among)) closed run
      simp only [State.accept, still.pending]
    · intro failure questions failed
      exact settled.elim (absurd · questions) fun fine => absurd failed (fine failure)
  · refine ⟨fun settled => ?_, fun _ _ _ => ⟨target, asks.pending, prompts, ?_⟩⟩
    · rcases settled with silent | fine
      · cases silent.symm.trans prompts
      · exact absurd failed (fine failure)
    · simp only [State.accept, asks.pending]

theorem reports_of_performAll? {state : State} {moves : List Move} {client : Client}
    (run : Client.performAll? { kernel := { state } } moves = some client) :
    ∀ event ∈ client.kernel.outbox.channel.queue, event.report? ≠ none := by
  refine Client.performAll?_keeps (fun client => ∀ event ∈ client.queue, event.report? ≠ none)
    (fun move _ reports moved event queued => ?_) (fun _ queued => by cases queued) run
  exact (Client.event?_of_perform? moved event queued).elim (reports event)
    fun ⟨_, _, _, _, own⟩ => Stage.report?_of_event? own

/-- A refresh has sent its first event when the command begins, and the user declines. -/
theorem request_taken_back_of_declined :
    let moves := [.dispatch .refresh, .advance (some 0), .advance (some 0)]
    let root : Url := { scheme := .http, host := .domain "host", path := [""] }
    let resource : Http.Resource := { base := root, collection := root.projects }
    let listing : Listing := ⟨[{ id := "p1", name := "Docs" }]⟩
    let script := Script.ofAnswers [.ok ⟨200, .ok (Text.utf8 listing.json)⟩] (.ok false)
    ∃ client, Client.performAll? {} moves = some client ∧
      client.kernel.outbox.channel.queue = [.refreshStarted 1] ∧
      client.kernel.state.pendingDelete = none ∧
      ((Job.delete "Docs").run resource script client.kernel).1.2.state.pendingDelete = none := by
  intro moves root resource listing script
  obtain ⟨client, run, queued, idle⟩ : ∃ client, Client.performAll? {} moves = some client ∧
      client.kernel.outbox.channel.queue = [.refreshStarted 1] ∧
      client.kernel.state.pendingDelete = none := ⟨_, rfl, rfl, rfl⟩
  have rests := request_stays_where_question_fails resource script "Docs" idle
    (reports_of_performAll? run)
  exact ⟨client, run, queued, idle, (rests.1 (.inr nofun)).1⟩

/-- Nobody can be asked. The request stays, and a confirmation deletes the project. -/
theorem request_left_of_no_terminal :
    let root : Url := { scheme := .http, host := .domain "host", path := [""] }
    let resource : Http.Resource := { base := root, collection := root.projects }
    let listing : Listing := ⟨[{ id := "p1", name := "Docs" }]⟩
    let script := Script.ofAnswers [.ok ⟨200, .ok (Text.utf8 listing.json)⟩]
      (.error (.unanswered "no terminal"))
    ((Job.delete "p1").run resource script {}).1.1 = .error (.unanswered "no terminal") ∧
      ((Job.delete "p1").run resource script {}).2.asked =
        ["Delete project \"Docs\"? This cannot be undone."] ∧
      ((Job.delete "p1").run resource script {}).1.2.state.pendingDelete = some ⟨"p1", "Docs"⟩ ∧
      (((Job.delete "p1").run resource script {}).1.2.state.accept .confirmDelete).2 =
        some (.delete ⟨"p1", "Docs"⟩) := by
  intro root resource listing script
  have lists : script.Lists [resource.request .list] listing :=
    ⟨_, _, rfl, by decide, by decide, rfl, listing.decode_utf8_json⟩
  have fetched := Script.fetch_eq_ok.2 ⟨listing, lists, rfl⟩
  have found : find? listing.projects "p1" = some { id := "p1", name := "Docs" } := rfl
  let target : PendingDelete := ⟨"p1", "Docs"⟩
  have first : ({ projects := listing.projects } : State).deleteTarget? "p1" = some target := rfl
  let fetching : Desk := (Desk.request {} (resource.request .list)).print (reports [.loading])
  have leads : Leads ((script.session resource).delete "p1" script.confirm) {} {}
      (.error (.unanswered "no terminal")) (asking target listing.projects {})
      ((fetching.print (reports [])).ask target.prompt) := by
    refine (leads_refresh rfl fetched).bind (leads_get fun kernel shown => ?_)
    have listed : kernel.state.projects = listing.projects := congrArg Page.projects shown
    rw [listed, found]
    refine (leads_request first {} fetching).bind (leads_get fun kernel shown => ?_)
    rw [confirmView_of_asking shown]
    exact (leads_confirm rfl target.prompt).bind_error
  have whole : Leads ((Job.delete "p1").work resource script) {} {} _ _ _ := leads.bind_error
  obtain ⟨kernel, mirrors, ran⟩ := whole {} Kernel.mirrors_initial
  have waits : kernel.state.pendingDelete = some target :=
    congrArg Page.pendingDelete mirrors.page
  rw [Job.run, ran]
  refine ⟨rfl, rfl, waits, ?_⟩
  simp only [State.accept, waits, target]

end Session
end ProjectClient

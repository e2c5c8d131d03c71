import ProjectClient.Proofs.Kernel.Client
import ProjectClient.Screen.View

/-! No project is deleted that the user did not confirm. A confirmation uses up one request, and
the request named a project that was listed when it was made. -/
namespace ProjectClient

def Call.deleted? : Call → Option String
  | delete id => some id
  | _ => none

def Stage.due? (stage : Stage) : Option String :=
  stage.call?.bind Call.deleted?

namespace Happening

def deleted? : Happening → Option String
  | call made => made.deleted?
  | command .. => none

/-- The project that was shown to the user who confirmed its delete. -/
def confirmed? : Happening → Option String
  | command found .confirmDelete => found.confirmView.map (·.projectId)
  | _ => none

end Happening

namespace Client

variable (client : Client)

def queue : List Event :=
  client.kernel.outbox.channel.queue

def deleted : List String :=
  client.log.filterMap Happening.deleted?

def due : List String :=
  (client.awaited.toList ++ client.kernel.tasks).filterMap Stage.due?

/-- The projects that were shown in the questions that the user confirmed. -/
def confirmed : List String :=
  client.log.filterMap Happening.confirmed?

end Client

/-! ## Single steps -/

/-- A flow makes the call of its change first or not at all. -/
theorem Stage.call?_of_advance? {outbox outbox' : Outbox} {stage next : Stage}
    (h : stage.advance? outbox = some (next, outbox')) (mutation : Mutation) :
    next.call? ≠ some mutation.call := by
  cases stage with
  | calling | starting | listing =>
    cases h
    nofun
  | awaiting | awaitingList | ended | crashed => cases h
  | reporting made accepted =>
    obtain ⟨_, _, ⟨⟩⟩ := Option.map_eq_some_iff.1 h
    cases accepted <;> nofun
  | announcing =>
    obtain ⟨_, _, ⟨⟩⟩ := Option.map_eq_some_iff.1 h
    cases mutation <;> nofun
  | delivering token listed =>
    cases listed <;>
    · obtain ⟨_, _, ⟨⟩⟩ := Option.map_eq_some_iff.1 h
      nofun

theorem Stage.due?_of_advance? {outbox outbox' : Outbox} {stage next : Stage}
    (h : stage.advance? outbox = some (next, outbox')) : next.due? = none := by
  have first := call?_of_advance? h
  rw [due?]
  cases called : next.call? with
  | none => rfl
  | some call =>
    cases call with
    | delete id => exact absurd called (first (.delete id))
    | list | create => rfl

theorem Stage.due?_answered (mutation : Mutation) (outcome : Outcome Unit) :
    (answered mutation outcome).due? = none := by
  cases outcome <;> rfl

theorem Stage.due?_listed (token : Token) (outcome : Outcome (List Project)) :
    (listed token outcome).due? = none := by
  cases outcome <;> rfl

theorem Stage.due?_of_isOver {stage : Stage} (finished : stage.IsOver) : stage.due? = none := by
  rcases finished with rfl | rfl <;> rfl

theorem Stage.report?_of_event? {stage : Stage} {event : Event}
    (h : stage.event? = some event) : event.report? ≠ none := by
  cases stage with
  | reporting mutation accepted =>
    cases h
    simp [mutation.report?_report]
  | announcing =>
    cases h
    nofun
  | delivering token listed =>
    cases listed <;>
    · cases h
      nofun
  | _ => cases h

theorem Stage.queue_of_advance? {outbox outbox' : Outbox} {stage next : Stage}
    (h : stage.advance? outbox = some (next, outbox')) :
    ∀ event ∈ outbox'.channel.queue, event ∈ outbox.channel.queue ∨ event.report? ≠ none :=
  fun event queued => (event?_of_advance? h event queued).imp id report?_of_event?

namespace State

/-- A command starts to delete a project only if it confirms what the user was asked. -/
theorem due?_accept (state : State) (command : Command) :
    ((state.accept command).2.bind fun flow => (Stage.ofFlow flow).due?) =
      (Happening.command state command).confirmed? := by
  cases command with
  | submitCreate | createProject =>
    simp only [accept, submitDraft]
    split <;> rfl
  | requestDelete id =>
    simp only [accept]
    split <;> rfl
  | confirmDelete =>
    simp only [accept, Happening.confirmed?, confirmView]
    cases state.pendingDelete <;> rfl
  | loadInitialState | refresh | cancelDelete | clearStatus => rfl

theorem id_of_deleteTarget? {state : State} {id : String} {target : PendingDelete}
    (h : state.deleteTarget? id = some target) : target.id = id := by
  obtain ⟨project, found, rfl⟩ := Option.map_eq_some_iff.1 h
  simpa using List.find?_some found

theorem pendingDelete_accept {state : State} {command : Command} {target : PendingDelete}
    (h : (state.accept command).1.pendingDelete = some target) :
    (command = .requestDelete target.id ∧ state.deleteTarget? target.id = some target) ∨
    (state.pendingDelete = some target ∧ command ≠ .confirmDelete ∧ command ≠ .cancelDelete) := by
  cases command with
  | requestDelete id =>
    simp only [accept] at h
    split at h
    · rename_i other found
      cases h
      obtain rfl := id_of_deleteTarget? found
      exact .inl ⟨rfl, found⟩
    · exact .inr ⟨h, by simp, by simp⟩
  | confirmDelete =>
    simp only [accept] at h
    split at h
    · cases h
    · rename_i idle
      cases idle.symm.trans h
  | cancelDelete =>
    simp only [accept] at h
    split at h
    · cases h
    · rename_i idle
      rw [h] at idle
      exact absurd rfl idle
  | submitCreate | createProject =>
    simp only [accept, submitDraft] at h
    split at h <;> exact .inr ⟨h, by simp, by simp⟩
  | loadInitialState | refresh | clearStatus => exact .inr ⟨h, by simp, by simp⟩

theorem pendingDelete_apply {state : State} {event : Event} (h : event.report? ≠ none) :
    (state.apply event).pendingDelete = state.pendingDelete := by
  cases event with
  | refreshStarted | projectsLoaded | refreshFailed =>
    simp only [apply]
    split <;> rfl
  | projectCreated | createFailed | projectDeleted | deleteFailed => rfl
  | _ => exact absurd rfl h

end State

namespace Client

inductive Step (client next : Client) : Prop
  | accepts (command : Command)
      (state : next.kernel.state = (client.kernel.state.accept command).1)
      (log : next.log = client.log ++ [.command client.kernel.state command])
      (due : next.due.Perm
        ((Happening.command client.kernel.state command).confirmed?.toList ++ client.due))
      (queue : next.queue = client.queue)
  | moves (stage : Stage)
      (state : next.kernel.state = client.kernel.state)
      (log : next.log = client.log ++ (stage.call?.map .call).toList)
      (due : client.due.Perm (stage.due?.toList ++ next.due))
      (queue : ∀ event ∈ next.queue, event ∈ client.queue ∨ event.report? ≠ none)
  | receives (event : Event)
      (queued : event ∈ client.queue)
      (state : next.kernel.state = client.kernel.state.apply event)
      (log : next.log = client.log)
      (due : next.due = client.due)
      (queue : ∀ other ∈ next.queue, other ∈ client.queue)
  | rests
      (pending : next.kernel.state.pendingDelete = client.kernel.state.pendingDelete)
      (log : next.log = client.log)
      (due : next.due.Perm client.due)
      (queue : next.queue = client.queue)

variable {client next : Client}

theorem filterMap_due?_cons (stage : Stage) (stages : List Stage) :
    (stage :: stages).filterMap Stage.due? =
      stage.due?.toList ++ stages.filterMap Stage.due? := by
  cases due : stage.due? <;> simp [due]

theorem due_eraseIdx {stage : Stage} {i : Nat} (h : client.kernel.tasks[i]? = some stage) :
    client.due.Perm (stage.due?.toList ++
      (client.awaited.toList ++ client.kernel.tasks.eraseIdx i).filterMap Stage.due?) := by
  rw [← filterMap_due?_cons]
  exact (flows_eraseIdx h).filterMap _

theorem due_follow {stage : Stage} {flow : Option Nat} (h : client.stage? flow = some stage) :
    ∃ rest : List String, client.due.Perm (stage.due?.toList ++ rest) ∧
      ∀ (other : Stage) (outbox : Outbox) (log : List Happening),
        (client.follow flow other outbox log).due.Perm (other.due?.toList ++ rest) := by
  obtain ⟨rest, flows, followed⟩ := flows_follow h
  refine ⟨rest.filterMap Stage.due?, ?_, fun other outbox log => ?_⟩ <;>
    rw [← filterMap_due?_cons]
  · exact flows.filterMap _
  · exact (followed other outbox log).filterMap _

theorem state_of_perform? {move : Move} (h : client.perform? move = some next) :
    (∃ command, move.command? = some command ∧
      next.kernel.state = (client.kernel.state.accept command).1) ∨
    (∃ event ∈ client.queue, next.kernel.state = client.kernel.state.apply event) ∨
    (∃ edit, move = .edit edit ∧ next.kernel.state = client.kernel.state.editDraft edit) ∨
    next.kernel.state = client.kernel.state := by
  cases perform?_eq_some.1 h with
  | dispatch command idle => exact .inl ⟨command, rfl, state_dispatch client.kernel command⟩
  | execute command idle => exact .inl ⟨command, rfl, rfl⟩
  | receive event rest ready queued =>
    refine .inr (.inl ⟨event, ?_, rfl⟩)
    rw [queue, queued]
    exact List.mem_cons_self
  | edit edit idle => exact .inr (.inr (.inl ⟨edit, rfl, rfl⟩))
  | advance flow stands moved => exact .inr (.inr (.inr (client.state_follow flow _ _ _)))
  | answer flow outcome stands | answerList flow outcome stands =>
    exact .inr (.inr (.inr (client.state_follow flow _ _ _)))
  | conclude | settle => exact .inr (.inr (.inr rfl))

theorem step_of_follow {stage other : Stage} {flow : Option Nat}
    (stands : client.stage? flow = some stage) (before : stage.due? = none)
    (after : other.due? = none) :
    Step client (client.follow flow other client.kernel.outbox client.log) := by
  obtain ⟨rest, due, followed⟩ := due_follow stands
  have same := followed other client.kernel.outbox client.log
  rw [after] at same
  rw [before] at due
  exact .rests (congrArg State.pendingDelete (client.state_follow flow other _ _)) rfl
    (same.trans due.symm) rfl

theorem step_of_dispatch (command : Command) (free : client.awaited = none) :
    Step client { client with
      kernel := client.kernel.dispatch command
      log := client.log ++ [.command client.kernel.state command] } := by
  have started := client.kernel.state.due?_accept command
  rcases accepted : client.kernel.state.accept command with ⟨state, flow?⟩
  rw [accepted] at started
  have dispatched : client.kernel.dispatch command =
      flow?.elim { client.kernel with state } { client.kernel with state }.spawn := by
    rw [Kernel.dispatch, accepted]
  rw [dispatched]
  cases flow? with
  | none =>
    refine .accepts command (by rw [accepted]; rfl) rfl ?_ rfl
    rw [← started]
    exact .refl _
  | some flow =>
    refine .accepts command (by rw [accepted]; rfl) rfl ?_ rfl
    rw [← started, due, due, free]
    have last : (client.kernel.tasks ++ [Stage.ofFlow flow]).filterMap Stage.due? =
        client.kernel.tasks.filterMap Stage.due? ++ (Stage.ofFlow flow).due?.toList := by
      rw [List.filterMap_append, filterMap_due?_cons]
      exact congrArg _ (List.append_nil _)
    exact (List.Perm.of_eq last).trans List.perm_append_comm

theorem step_of_begin (command : Command) (free : client.awaited = none) :
    Step client (client.begin command) := by
  have started := client.kernel.state.due?_accept command
  rcases accepted : client.kernel.state.accept command with ⟨state, flow?⟩
  rw [accepted] at started
  have begun : client.begin command = { client with
      kernel.state := state, awaited := some (flow?.elim .ended .ofFlow)
      log := client.log ++ [.command client.kernel.state command] } := by
    rw [begin, accepted]
  rw [begun]
  refine .accepts command (by rw [accepted]) rfl ?_ rfl
  rw [← started, due, due, free]
  refine .of_eq ((filterMap_due?_cons _ _).trans ?_)
  cases flow? <;> rfl

theorem step_of_perform? {move : Move} (h : client.perform? move = some next) :
    Step client next := by
  cases perform?_eq_some.1 h with
  | dispatch command idle => exact step_of_dispatch command idle
  | execute command idle => exact step_of_begin command idle
  | receive event rest ready queued =>
    have first : event ∈ client.queue := by
      rw [queue, queued]
      exact List.mem_cons_self
    refine .receives event first rfl rfl rfl fun other later => ?_
    rw [queue, queued]
    exact List.mem_cons_of_mem _ later
  | conclude finished =>
    refine .rests rfl rfl ?_ rfl
    rcases finished with ⟨ended, _⟩ | crashed
    · rw [due, due, ended]
      exact .refl _
    · rw [due, due, crashed]
      exact .refl _
  | edit edit idle => exact .rests rfl rfl (.refl _) rfl
  | @advance flow stage stage' outbox stands moved =>
    obtain ⟨rest, due, followed⟩ := due_follow stands
    have left := followed stage' outbox (client.log ++ (stage.call?.map .call).toList)
    rw [Stage.due?_of_advance? moved] at left
    exact .moves stage (client.state_follow flow stage' _ _) rfl
      (due.trans (.append_left _ left.symm)) (Stage.queue_of_advance? moved)
  | answer flow outcome stands =>
    exact step_of_follow stands rfl (Stage.due?_answered _ outcome)
  | answerList flow outcome stands =>
    exact step_of_follow stands rfl (Stage.due?_listed _ outcome)
  | settle i stands finished =>
    have left := due_eraseIdx stands
    rw [Stage.due?_of_isOver finished] at left
    exact .rests rfl rfl left.symm rfl

end Client

/-! ## Requests -/

namespace Happening

/-- The user answers a question, or means to. -/
def Answers : Happening → Prop
  | command _ .confirmDelete | command _ .cancelDelete => True
  | _ => False

/-- The delete was requested of a project that was listed then, and no answer was given since. -/
def Requested (log : List Happening) (target : PendingDelete) : Prop :=
  ∃ before found after, log = before ++ command found (.requestDelete target.id) :: after ∧
    found.deleteTarget? target.id = some target ∧ ∀ happening ∈ after, ¬ happening.Answers

def Justified (log : List Happening) : Prop :=
  ∀ before found after, log = before ++ command found .confirmDelete :: after →
    ∀ target, found.pendingDelete = some target → Requested before target

variable {log : List Happening} {target : PendingDelete} {happening : Happening}

theorem Requested.append (requested : Requested log target) {others : List Happening}
    (silent : ∀ happening ∈ others, ¬ happening.Answers) : Requested (log ++ others) target := by
  obtain ⟨before, found, after, rfl, listed, quiet⟩ := requested
  refine ⟨before, found, after ++ others, by simp, listed, fun happening member => ?_⟩
  rcases List.mem_append.1 member with old | new
  · exact quiet happening old
  · exact silent happening new

theorem Justified.append (justified : Justified log)
    (last : ∀ found, happening = command found .confirmDelete →
      ∀ target, found.pendingDelete = some target → Requested log target) :
    Justified (log ++ [happening]) := by
  intro before found after split
  -- The confirmation is the last happening, or it was in the log before.
  rcases List.eq_nil_or_concat after with rfl | ⟨after, final, rfl⟩
  · obtain ⟨rfl, same⟩ := List.append_inj' split rfl
    exact last found (List.cons.inj same).1
  · have split' : log ++ [happening] =
        (before ++ command found .confirmDelete :: after) ++ [final] := by
      rw [split]
      simp
    obtain ⟨old, _⟩ := List.append_inj' split' rfl
    exact justified before found after old

theorem not_answers_calls (call? : Option Call) :
    ∀ happening ∈ (call?.map call).toList, ¬ happening.Answers := by
  cases call? <;> simp [Answers]

theorem not_answers_command {found : State} {given : Command} (notConfirm : given ≠ .confirmDelete)
    (notCancel : given ≠ .cancelDelete) : ¬ (command found given).Answers := by
  cases given with
  | confirmDelete => exact absurd rfl notConfirm
  | cancelDelete => exact absurd rfl notCancel
  | _ => exact id

theorem Justified.append_calls (justified : Justified log) (call? : Option Call) :
    Justified (log ++ (call?.map call).toList) := by
  cases call? with
  | none => simpa using justified
  | some made => exact justified.append nofun

end Happening

namespace Client

open Happening (Requested Justified)

/-- Every delete that is made or due was confirmed, and every request that was confirmed or waits
was made for a listed project. -/
structure Gated (client : Client) : Prop where
  matched : (client.deleted ++ client.due).Perm client.confirmed
  reports : ∀ event ∈ client.queue, event.report? ≠ none
  pending : ∀ target, client.kernel.state.pendingDelete = some target →
    Requested client.log target
  past : Justified client.log

variable {client next : Client}

theorem gated_initial (state : State) (idle : state.pendingDelete = none) :
    Gated { kernel := { state } } where
  matched := .refl _
  reports _ h := by cases h
  pending target h := by cases idle.symm.trans h
  past before found after h := by simp at h

theorem Gated.accepts (gated : client.Gated) (command : Command)
    (state : next.kernel.state = (client.kernel.state.accept command).1)
    (log : next.log = client.log ++ [.command client.kernel.state command])
    (due : next.due.Perm
      ((Happening.command client.kernel.state command).confirmed?.toList ++ client.due))
    (queue : next.queue = client.queue) : next.Gated := by
  constructor
  · have deleted : next.deleted = client.deleted := by
      rw [Client.deleted, log, List.filterMap_append]
      exact List.append_nil _
    have confirmed : next.confirmed = client.confirmed ++
        (Happening.command client.kernel.state command).confirmed?.toList := by
      rw [Client.confirmed, log, List.filterMap_append]
      cases hc : (Happening.command client.kernel.state command).confirmed? <;>
        simp [Client.confirmed, hc]
    rw [deleted, confirmed]
    refine (List.Perm.append_left _ due).trans ?_
    refine List.perm_append_comm_assoc _ _ _ |>.trans ?_
    exact List.perm_append_comm.trans (.append_right _ gated.matched)
  · rw [queue]
    exact gated.reports
  · intro target waits
    rw [state] at waits
    rw [log]
    rcases State.pendingDelete_accept waits with ⟨rfl, listed⟩ | ⟨old, notConfirm, notCancel⟩
    · exact ⟨client.log, client.kernel.state, [], rfl, listed, nofun⟩
    · refine (gated.pending target old).append fun happening member => ?_
      rw [List.mem_singleton.1 member]
      exact Happening.not_answers_command notConfirm notCancel
  · rw [log]
    refine gated.past.append fun found same target waits => ?_
    cases same
    exact gated.pending target waits

theorem Gated.moves (gated : client.Gated) (stage : Stage)
    (state : next.kernel.state = client.kernel.state)
    (log : next.log = client.log ++ (stage.call?.map .call).toList)
    (due : client.due.Perm (stage.due?.toList ++ next.due))
    (queue : ∀ event ∈ next.queue, event ∈ client.queue ∨ event.report? ≠ none) : next.Gated := by
  constructor
  · have deleted : next.deleted = client.deleted ++ stage.due?.toList := by
      rw [Client.deleted, log, List.filterMap_append, Stage.due?]
      cases stage.call? with
      | none => simp [Client.deleted]
      | some made =>
        cases hd : made.deleted? <;> simp [Client.deleted, Happening.deleted?, hd]
    have confirmed : next.confirmed = client.confirmed := by
      rw [Client.confirmed, log, List.filterMap_append]
      cases stage.call? <;> simp [Client.confirmed, Happening.confirmed?]
    rw [deleted, confirmed, List.append_assoc]
    exact (List.Perm.append_left _ due.symm).trans gated.matched
  · intro event queued
    exact (queue event queued).elim (gated.reports event) id
  · intro target waits
    rw [state] at waits
    rw [log]
    exact (gated.pending target waits).append (Happening.not_answers_calls stage.call?)
  · rw [log]
    exact gated.past.append_calls stage.call?

theorem Gated.step (gated : client.Gated) (step : Step client next) : next.Gated := by
  cases step with
  | accepts command state log due queue => exact gated.accepts command state log due queue
  | moves stage state log due queue => exact gated.moves stage state log due queue
  | receives event queued state log due queue =>
    -- Only a command asks about a delete or drops the question, and none is in the channel.
    have same : next.kernel.state.pendingDelete = client.kernel.state.pendingDelete := by
      rw [state, State.pendingDelete_apply (gated.reports event queued)]
    refine ⟨?_, fun other later => gated.reports other (queue other later), ?_, log ▸ gated.past⟩
    · rw [deleted, confirmed, log, due]
      exact gated.matched
    · rw [same, log]
      exact gated.pending
  | rests pending log due queue =>
    refine ⟨?_, queue ▸ gated.reports, ?_, log ▸ gated.past⟩
    · rw [deleted, confirmed, log]
      exact (List.Perm.append_left _ due).trans gated.matched
    · rw [pending, log]
      exact gated.pending

theorem Gated.performAll? {moves : List Move} (gated : client.Gated)
    (run : client.performAll? moves = some next) : next.Gated :=
  performAll?_keeps Gated (fun _ _ gated moved => gated.step (step_of_perform? moved)) gated run

end Client

/-- In every interleaving, deletes are made and due for the projects that were shown in the
questions that the user confirmed, one for one. Each of these was requested, while it was listed and
by the name it had first in the list, and no other question was answered in between. A confirmation
that finds no question does nothing, apart from the tick that ends its execution. -/
theorem confirmation_gate {state : State} (idle : state.pendingDelete = none) {moves : List Move}
    {client : Client}
    (run : Client.performAll? { kernel := { state } } moves = some client) :
    (client.deleted ++ client.due).Perm client.confirmed ∧
    (∀ before found after, client.log = before ++ .command found .confirmDelete :: after →
      ∀ view ∈ found.confirmView, ∃ earlier asked later project,
        before = earlier ++ .command asked (.requestDelete view.projectId) :: later ∧
        asked.projects.find? (·.id = view.projectId) = some project ∧
        view.prompt = s!"Delete project \"{project.name}\"? This cannot be undone." ∧
        ∀ found, .command found .confirmDelete ∉ later ∧ .command found .cancelDelete ∉ later) ∧
    (client.kernel.state.pendingDelete = none →
      client.kernel.dispatch .confirmDelete = client.kernel ∧
      (client.begin .confirmDelete).kernel = client.kernel ∧
      (client.begin .confirmDelete).awaited = some .ended ∧
      ∀ {m : Type → Type} [Monad m] (api : Api m),
        client.kernel.execute api .confirmDelete =
          pure (client.kernel.tick.1, some client.kernel.tick.2)) := by
  have gated := (Client.gated_initial state idle).performAll? run
  refine ⟨gated.matched, ?_, ?_⟩
  · intro before found after split view shown
    obtain ⟨target, waits, rfl⟩ := Option.map_eq_some_iff.1 shown
    obtain ⟨earlier, asked, later, split', listed, silent⟩ :=
      gated.past before found after split target waits
    obtain ⟨project, first, named⟩ := Option.map_eq_some_iff.1 listed
    refine ⟨earlier, asked, later, project, split', first, ?_, fun found => ⟨?_, ?_⟩⟩
    · rw [← named]
      rfl
    · exact fun member => silent _ member trivial
    · exact fun member => silent _ member trivial
  · intro nothing
    have accepted : client.kernel.state.accept .confirmDelete = (client.kernel.state, none) := by
      simp only [State.accept, nothing]
    refine ⟨?_, ?_, ?_, fun api => ?_⟩
    · rw [Kernel.dispatch, accepted]
      rfl
    · rw [Client.begin, accepted]
    · rw [Client.begin, accepted]
      rfl
    · rw [Kernel.execute, accepted]

/-- A request for an unknown project changes nothing about the one that waits, and the second of two
confirmations finds nothing. -/
theorem confirmation_gate_of_twice :
    let state : State := { projects := [{ id := "p1", name := "Site" }] }
    let moves := [.dispatch (.requestDelete "p1"), .execute (.requestDelete "p9"), .conclude,
      .dispatch .confirmDelete, .execute .confirmDelete, .conclude, .advance (some 0)]
    state.pendingDelete = none ∧
    ∃ client, Client.performAll? { kernel := { state } } moves = some client ∧
      (client.deleted ++ client.due).Perm ["p1"] ∧
      client.kernel.dispatch .confirmDelete = client.kernel := by
  intro state moves
  obtain ⟨client, run, once, idle⟩ : ∃ client,
      Client.performAll? { kernel := { state } } moves = some client ∧
      client.confirmed = ["p1"] ∧ client.kernel.state.pendingDelete = none := ⟨_, rfl, rfl, rfl⟩
  have gate := confirmation_gate rfl run
  exact ⟨rfl, client, run, once ▸ gate.1, (gate.2.2 idle).1⟩

end ProjectClient

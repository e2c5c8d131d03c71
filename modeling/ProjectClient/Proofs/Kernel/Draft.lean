import ProjectClient.Proofs.Kernel.Gate
import ProjectClient.Proofs.Kernel.Room
import ProjectClient.Proofs.Text.Split

/-! The draft of a new project. A submission takes it, and clears it before the call goes out, so
that no other one takes it again. -/
namespace ProjectClient

def Call.created? : Call → Option String
  | create name => some name
  | _ => none

def Stage.creates (name : String) (stage : Stage) : Nat :=
  if stage.call? = some (.create name) then 1 else 0

def Happening.created? : Happening → Option String
  | call made => made.created?
  | command .. => none

/-- The calls that were made to create a project of this name, and those that flows are about to
make. -/
def Client.created (client : Client) (name : String) : Nat :=
  (client.log.filterMap Happening.created?).count name + client.total (Stage.creates name)

def Move.WritesDraft : Move → Prop
  | .edit _ | .dispatch (.createProject _) | .execute (.createProject _) => True
  | _ => False

/-! ## Flows -/

namespace Stage

variable {name : String}

theorem creates_of_advance? (name : String) {outbox outbox' : Outbox} {stage next : Stage}
    (h : stage.advance? outbox = some (next, outbox')) : next.creates name = 0 :=
  if_neg (call?_of_advance? h (.create name))

theorem creates_answered (mutation : Mutation) (outcome : Outcome Unit) :
    (answered mutation outcome).creates name = 0 := by
  cases outcome <;> rfl

theorem creates_listed (token : Token) (outcome : Outcome (List Project)) :
    (listed token outcome).creates name = 0 := by
  cases outcome <;> rfl

theorem creates_of_isOver {stage : Stage} (finished : stage.IsOver) : stage.creates name = 0 := by
  rcases finished with rfl | rfl <;> rfl

theorem creates_ofFlow (flow : Flow) :
    (ofFlow flow).creates name = if some flow = some (.create name) then 1 else 0 := by
  cases flow with
  | create other => simp [ofFlow, creates, call?, Mutation.call]
  | refresh | delete => rfl

theorem count_call? (stage : Stage) :
    ((stage.call?.map Happening.call).toList.filterMap Happening.created?).count name =
      stage.creates name := by
  rw [creates]
  cases stage.call? with
  | none => rfl
  | some call =>
    cases call with
    | create other => simp [Happening.created?, Call.created?, List.count_singleton]
    | list | delete => rfl

end Stage

/-! ## Moves -/

namespace State

variable {state : State}

theorem accept_submitCreate (visible : ¬ Text.IsBlank state.createDraft) :
    state.accept .submitCreate =
      (state.apply .createDraftSubmitted, some (.create (Text.trim state.createDraft))) :=
  if_neg visible

theorem accept_submitCreate_of_isBlank (blank : Text.IsBlank state.createDraft) :
    state.accept .submitCreate = (state, none) :=
  if_pos blank

theorem canSubmitCreate_iff : state.view.canSubmitCreate = true ↔ ¬ Text.IsBlank state.createDraft :=
  decide_eq_true_iff

theorem canSubmitCreate_eq_false_iff :
    state.view.canSubmitCreate = false ↔ Text.IsBlank state.createDraft := by
  rw [← Bool.not_eq_true, canSubmitCreate_iff, not_not]

theorem canSubmitCreate_iff_accept : state.view.canSubmitCreate = true ↔
    ∃ flow, (state.accept .submitCreate).2 = some flow := by
  rw [canSubmitCreate_iff]
  constructor
  · intro visible
    rw [accept_submitCreate visible]
    exact ⟨_, rfl⟩
  · rintro ⟨flow, starts⟩ blank
    rw [accept_submitCreate_of_isBlank blank] at starts
    cases starts

theorem accept_of_noDraft (empty : state.createDraft = "") {command : Command}
    (other : ∀ name, command ≠ .createProject name) :
    (state.accept command).1.createDraft = "" ∧
      ∀ name, (state.accept command).2 ≠ some (.create name) := by
  cases command with
  | submitCreate =>
    have blank : Text.IsBlank state.createDraft := by
      rw [empty]
      decide
    rw [accept_submitCreate_of_isBlank blank]
    exact ⟨empty, fun _ starts => by cases starts⟩
  | createProject name => exact absurd rfl (other name)
  | requestDelete | confirmDelete | cancelDelete =>
    simp only [accept]
    split <;> exact ⟨empty, fun _ starts => by cases starts⟩
  | loadInitialState | refresh | clearStatus => exact ⟨empty, fun _ starts => by cases starts⟩

theorem createDraft_apply (empty : state.createDraft = "") (event : Event) :
    (state.apply event).createDraft = "" := by
  cases event with
  | createDraftSubmitted => rfl
  | refreshStarted | projectsLoaded | refreshFailed =>
    simp only [apply]
    split <;> exact empty
  | _ => exact empty

end State

namespace Client

variable {client next : Client} {move : Move}

theorem creates_started (flow? : Option Flow) (name : String) :
    (flow?.elim Stage.ended .ofFlow).creates name =
      if flow? = some (.create name) then 1 else 0 := by
  cases flow? with
  | none => rfl
  | some flow => exact Stage.creates_ofFlow flow

def started (client : Client) (move : Move) : Stage :=
  (move.command?.bind fun command => (client.kernel.state.accept command).2).elim .ended .ofFlow

theorem total_dispatch (kernel : Kernel) (command : Command) (name : String) :
    Stage.total (Stage.creates name) (kernel.dispatch command).tasks =
      Stage.total (Stage.creates name) kernel.tasks +
        ((kernel.state.accept command).2.elim .ended Stage.ofFlow).creates name := by
  rcases accepted : kernel.state.accept command with ⟨state, flow?⟩
  rw [Kernel.dispatch, accepted]
  cases flow? with
  | none => rfl
  | some flow => exact Stage.total_concat _ _ _

/-- The flow that goes on counts no more, at the latest when its call is in the log. -/
theorem creates_follow {flow : Option Nat} {stage other : Stage} {name : String}
    (stands : client.stage? flow = some stage) (counted : other.creates name = 0) (outbox : Outbox)
    (log : List Happening) :
    (client.follow flow other outbox log).total (Stage.creates name) + stage.creates name =
      client.total (Stage.creates name) := by
  rw [total_follow stands, counted, Nat.add_zero]

theorem created_of_perform? (moved : client.perform? move = some next) (name : String) :
    next.created name = client.created name + (client.started move).creates name := by
  have commands (command : Command) :
      ((client.log ++ [Happening.command client.kernel.state command]).filterMap
        Happening.created?).count name = (client.log.filterMap Happening.created?).count name := by
    rw [List.filterMap_append]
    exact congrArg _ (List.append_nil _)
  cases perform?_eq_some.1 moved with
  | dispatch command idle =>
    have tasks := total_dispatch client.kernel command name
    simp only [created, commands, total, tasks, started, Move.command?, Option.bind_some]
    omega
  | execute command idle =>
    simp only [created, begin, commands, total, idle, Option.elim_some, Option.elim_none, started,
      Move.command?, Option.bind_some]
    omega
  | conclude finished =>
    have counted : client.awaited.elim 0 (Stage.creates name) = 0 := by
      rcases finished with ⟨ended, -⟩ | crashed
      · rw [ended]
        rfl
      · rw [crashed]
        rfl
    simp only [created, total, counted, Option.elim_none]
    rfl
  | @advance flow stage stage' outbox stands goes =>
    have left := creates_follow stands (Stage.creates_of_advance? name goes) outbox
      (client.log ++ (stage.call?.map .call).toList)
    have log : (client.follow flow stage' outbox
        (client.log ++ (stage.call?.map .call).toList)).log =
          client.log ++ (stage.call?.map .call).toList := rfl
    have none : (client.started (.advance flow)).creates name = 0 := rfl
    simp only [created, log, List.filterMap_append, List.count_append, Stage.count_call?, none]
    omega
  | answer flow outcome stands =>
    exact congrArg _ (creates_follow stands (Stage.creates_answered _ outcome) _ _)
  | answerList flow outcome stands =>
    exact congrArg _ (creates_follow stands (Stage.creates_listed _ outcome) _ _)
  | settle i stands finished =>
    let left : Client := { client with
      kernel.tasks := client.kernel.tasks.eraseIdx i
      kernel.inFlight := client.kernel.inFlight - 1 }
    have rest : left.total (Stage.creates name) + _ = client.total (Stage.creates name) :=
      total_settle (Stage.creates name) stands rfl rfl
    rw [Stage.creates_of_isOver finished] at rest
    exact congrArg _ rest
  | receive | edit => rfl

theorem noDraft_of_perform? {count : String → Nat}
    (noDraft : client.kernel.state.createDraft = "" ∧ ∀ name, client.created name = count name)
    (leaves : ¬ move.WritesDraft) (moved : client.perform? move = some next) :
    next.kernel.state.createDraft = "" ∧ ∀ name, next.created name = count name := by
  obtain ⟨empty, counted⟩ := noDraft
  have accepts {command : Command} (given : move.command? = some command) :
      (client.kernel.state.accept command).1.createDraft = "" ∧
        ∀ name, (client.kernel.state.accept command).2 ≠ some (.create name) := by
    refine State.accept_of_noDraft empty ?_
    rintro name rfl
    cases move with
    | dispatch | execute =>
      cases given
      exact leaves trivial
    | _ => cases given
  constructor
  · rcases state_of_perform? moved with
      ⟨command, given, state⟩ | ⟨event, -, state⟩ | ⟨edit, rfl, -⟩ | state
    · rw [state, (accepts given).1]
    · rw [state, State.createDraft_apply empty event]
    · exact absurd trivial leaves
    · rw [state, empty]
  · intro name
    have starts : (client.started move).creates name = 0 := by
      rw [started]
      cases given : move.command? with
      | none => rfl
      | some command => rw [Option.bind_some, creates_started, if_neg ((accepts given).2 name)]
    rw [created_of_perform? moved, starts, Nat.add_zero, counted]

/-- A submission takes the draft, and no other one takes it again. -/
theorem created_of_submit (visible : ¬ Text.IsBlank client.kernel.state.createDraft)
    (submits : move = .dispatch .submitCreate ∨ move = .execute .submitCreate) {moves : List Move}
    {last : Client} (run : client.performAll? (move :: moves) = some last)
    (leave : ∀ move ∈ moves, ¬ move.WritesDraft) :
    last.kernel.state.createDraft = "" ∧ ∀ name, last.created name = client.created name +
      if name = Text.trim client.kernel.state.createDraft then 1 else 0 := by
  have accepted := State.accept_submitCreate visible
  simp only [performAll?, List.foldlM_cons, Option.bind_eq_bind, Option.bind_eq_some_iff] at run
  obtain ⟨next, moved, run⟩ := run
  refine performAll?_keeps (fun reached => reached.kernel.state.createDraft = "" ∧
      ∀ name, reached.created name = client.created name +
        if name = Text.trim client.kernel.state.createDraft then 1 else 0)
    (fun move among noDraft => noDraft_of_perform? noDraft (leave move among))
    ⟨?_, fun name => ?_⟩ run
  · rcases submits with rfl | rfl
    · cases perform?_eq_some.1 moved
      rw [state_dispatch, accepted]
      rfl
    · cases perform?_eq_some.1 moved
      simp only [begin, accepted]
      rfl
  · have starts : client.started move =
        .calling (.create (Text.trim client.kernel.state.createDraft)) := by
      rcases submits with rfl | rfl <;>
      · simp only [started, Move.command?, Option.bind_some, accepted]
        rfl
    rw [created_of_perform? moved, starts]
    simp only [Stage.creates, Stage.call?, Mutation.call, Option.some.injEq, Call.create.injEq,
      eq_comm]

end Client

/-! ## The server -/

def Api.behind {σ : Type} (api : Api (StateM σ)) (server : σ) : Call → σ
  | .list => (api.list server).2
  | .create name => (api.mutate (.create name) server).2
  | .delete id => (api.mutate (.delete id) server).2

def Stage.change? : Stage → Option Mutation
  | calling mutation | awaiting mutation => some mutation
  | _ => none

section Server

variable {σ : Type} {api : Api (StateM σ)}

theorem Api.behind_mutation (server : σ) (mutation : Mutation) :
    api.behind server mutation.call = (api.mutate mutation server).2 := by
  cases mutation <;> rfl

theorem Stage.change?_of_advance? {outbox outbox' : Outbox} {stage next : Stage}
    (h : stage.advance? outbox = some (next, outbox')) (answered : stage.change? = none) :
    next.change? = none := by
  cases stage with
  | calling | awaiting => cases answered
  | starting | listing =>
    cases h
    rfl
  | awaitingList | ended | crashed => cases h
  | reporting mutation accepted =>
    obtain ⟨_, _, ⟨⟩⟩ := Option.map_eq_some_iff.1 h
    cases accepted <;> rfl
  | announcing =>
    obtain ⟨_, _, ⟨⟩⟩ := Option.map_eq_some_iff.1 h
    rfl
  | delivering token listed =>
    cases listed <;>
    · obtain ⟨_, _, ⟨⟩⟩ := Option.map_eq_some_iff.1 h
      rfl

theorem Stage.change?_answered (mutation : Mutation) (outcome : Outcome Unit) :
    (answered mutation outcome).change? = none := by
  cases outcome <;> rfl

theorem Stage.change?_listed (token : Token) (outcome : Outcome (List Project)) :
    (listed token outcome).change? = none := by
  cases outcome <;> rfl

variable (api)

theorem Stage.exists_lists_run {stage : Stage} (answered : stage.change? = none) (outbox : Outbox)
    (server : σ) : ∃ count, (stage.run api outbox server).2 =
      (List.replicate count Call.list).foldl api.behind server := by
  refine (run_keeps (fun stage _ server' => stage.change? = none ∧ ∃ count,
    server' = (List.replicate count Call.list).foldl api.behind server)
    (fun moved before => ⟨change?_of_advance? moved before.1, before.2⟩) (fun before => ?_)
    (fun before => ?_) ⟨answered, 0, rfl⟩ rfl).2
  · cases before.1
  · obtain ⟨-, count, rfl⟩ := before
    refine ⟨change?_listed _ _, count + 1, ?_⟩
    rw [List.replicate_succ', List.foldl_append]
    rfl

theorem Stage.exists_calls_run (mutation : Mutation) (outbox : Outbox) (server : σ) :
    ∃ count, ((calling mutation).run api outbox server).2 =
      (mutation.call :: List.replicate count .list).foldl api.behind server := by
  have asks : (calling mutation).advance? outbox = some (awaiting mutation, outbox) := rfl
  obtain ⟨count, lists⟩ := exists_lists_run api
    (change?_answered mutation (api.mutate mutation server).1) outbox (api.mutate mutation server).2
  refine ⟨count, ?_⟩
  rw [run_of_advance? api asks, run_awaiting, List.foldl_cons, Api.behind_mutation, lists]

theorem Kernel.exists_calls_execute {kernel : Kernel} {command : Command} {state : State}
    {name : String} (accepted : kernel.state.accept command = (state, some (.create name)))
    (server : σ) : ∃ count, (kernel.execute api command server).2 =
      (.create name :: List.replicate count .list).foldl api.behind server := by
  obtain ⟨count, calls⟩ := Stage.exists_calls_run api (.create name) kernel.outbox server
  have executed := kernel.executes api command server
  generalize kernel.execute api command server = ended at executed ⊢
  cases executed with
  | atOnce other => cases accepted.symm.trans other
  | whole same ran | unfinished same ran =>
    cases accepted.symm.trans same
    exact ⟨count, (congrArg Prod.snd ran).symm.trans calls⟩

end Server

end ProjectClient

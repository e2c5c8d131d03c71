import Mathlib.Data.List.Perm.Basic
import ProjectClient.Proofs.Flow.Schedule
import ProjectClient.Proofs.Kernel.Mirrors

/-! A client with all that can happen at once: its user, its flows and the server. The user's side
gives one command after the other, and while a command is executed only its flow and the dispatched
ones move. What the kernel does when it is left alone is one of these interleavings. -/
namespace ProjectClient

inductive Happening where
  /-- A command, and the state that it found. -/
  | command (found : State) (command : Command)
  | call (call : Call)

structure Client where
  kernel : Kernel := {}
  /-- The flow of the command that is being executed. It has ended at once if there is none. -/
  awaited : Option Stage := none
  log : List Happening := []

/-- A step of one party. The flow of the executed command has no number, and the dispatched ones
have their places in the kernel. -/
inductive Move where
  | dispatch (command : Command)
  | execute (command : Command)
  | receive
  | conclude
  | edit (edit : String → String)
  | advance (flow : Option Nat)
  | answer (flow : Option Nat) (outcome : Outcome Unit)
  | answerList (flow : Option Nat) (outcome : Outcome (List Project))
  | settle (flow : Nat)

def Move.command? : Move → Option Command
  | .dispatch command | .execute command => some command
  | _ => none

namespace Client

def stage? (client : Client) : Option Nat → Option Stage
  | none => client.awaited
  | some i => client.kernel.tasks[i]?

def flows (client : Client) : List Stage :=
  client.awaited.toList ++ client.kernel.tasks

def place (client : Client) (stage : Stage) : Option Nat → Client
  | none => { client with awaited := some stage }
  | some i => { client with kernel.tasks := client.kernel.tasks.set i stage }

def begin (client : Client) (command : Command) : Client :=
  let (state, flow?) := client.kernel.state.accept command
  { client with
    kernel.state := state, awaited := some (flow?.elim .ended .ofFlow)
    log := client.log ++ [.command client.kernel.state command] }

def receive? (client : Client) : Option Client := do
  let (event, channel) ← client.kernel.outbox.channel.receive?
  return { client with
    kernel.state := client.kernel.state.apply event, kernel.outbox.channel := channel }

def advance? (client : Client) (flow : Option Nat) : Option Client := do
  let stage ← client.stage? flow
  let (next, outbox) ← stage.advance? client.kernel.outbox
  return { client.place next flow with
    kernel.outbox := outbox, log := client.log ++ (stage.call?.map .call).toList }

def perform? (client : Client) : Move → Option Client
  | .dispatch command =>
    if client.awaited = none then
      some { client with
        kernel := client.kernel.dispatch command
        log := client.log ++ [.command client.kernel.state command] }
    else none
  | .execute command => if client.awaited = none then some (client.begin command) else none
  | .receive =>
    if client.awaited = none ∨ client.awaited = some .ended then client.receive? else none
  | .conclude =>
    if client.awaited = some .ended ∧ client.kernel.outbox.channel.queue = [] ∨
        client.awaited = some .crashed then
      some { client with awaited := none }
    else none
  | .edit edit =>
    if client.awaited = none then some { client with kernel := client.kernel.editDraft edit }
    else none
  | .advance flow => client.advance? flow
  | .answer flow outcome =>
    match client.stage? flow with
    | some (.awaiting mutation) => some (client.place (.answered mutation outcome) flow)
    | _ => none
  | .answerList flow outcome =>
    match client.stage? flow with
    | some (.awaitingList token) => some (client.place (.listed token outcome) flow)
    | _ => none
  | .settle i => do return { client with kernel := ← client.kernel.settle? i }

def performAll? (client : Client) (moves : List Move) : Option Client :=
  moves.foldlM perform? client

def LeadsTo (client last : Client) : Prop :=
  RunsTo perform? client last

/-! ## What a move does -/

section Place

variable {client : Client} {flow : Option Nat} {stage : Stage}

theorem stage?_place (stands : client.stage? flow = some stage) (next : Stage) :
    (client.place next flow).stage? flow = some next := by
  cases flow with
  | none => rfl
  | some i => exact List.getElem?_set_self (List.getElem?_eq_some_iff.1 stands).1

theorem place_self (stands : client.stage? flow = some stage) :
    client.place stage flow = client := by
  cases flow with
  | none =>
    have waits : client.awaited = some stage := stands
    rw [place, ← waits]
  | some i =>
    obtain ⟨inside, rfl⟩ := List.getElem?_eq_some_iff.1 stands
    rw [place, List.set_getElem_self]

end Place

def follow (client : Client) (flow : Option Nat) (stage : Stage) (outbox : Outbox)
    (log : List Happening) : Client :=
  { client.place stage flow with kernel.outbox := outbox, log }

theorem follow_follow (client : Client) (flow : Option Nat) (first last : Stage)
    (outbox outbox' : Outbox) (log log' : List Happening) :
    (client.follow flow first outbox log).follow flow last outbox' log' =
      client.follow flow last outbox' log' := by
  cases flow with
  | none => rfl
  | some i => simp [follow, place]

theorem state_follow (client : Client) (flow : Option Nat) (stage : Stage) (outbox : Outbox)
    (log : List Happening) :
    (client.follow flow stage outbox log).kernel.state = client.kernel.state := by
  cases flow <;> rfl

theorem flows_eraseIdx {client : Client} {stage : Stage} {i : Nat}
    (h : client.kernel.tasks[i]? = some stage) :
    client.flows.Perm (stage :: (client.awaited.toList ++ client.kernel.tasks.eraseIdx i)) := by
  obtain ⟨inside, rfl⟩ := List.getElem?_eq_some_iff.1 h
  refine .trans ?_ List.perm_middle
  exact .append_left _ (List.getElem_cons_eraseIdx_perm inside).symm

theorem flows_follow {client : Client} {stage : Stage} {flow : Option Nat}
    (h : client.stage? flow = some stage) :
    ∃ rest : List Stage, client.flows.Perm (stage :: rest) ∧
      ∀ (other : Stage) (outbox : Outbox) (log : List Happening),
        (client.follow flow other outbox log).flows.Perm (other :: rest) := by
  cases flow with
  | none =>
    have waits : client.awaited = some stage := h
    refine ⟨client.kernel.tasks, ?_, fun other outbox log => .refl _⟩
    rw [flows, waits]
    exact .refl _
  | some i =>
    have inside : i < client.kernel.tasks.length := (List.getElem?_eq_some_iff.1 h).1
    refine ⟨_, flows_eraseIdx h, fun other outbox log => ?_⟩
    have there : (client.follow (some i) other outbox log).kernel.tasks[i]? = some other :=
      List.getElem?_set_self inside
    have moved := flows_eraseIdx there
    have rest : (client.follow (some i) other outbox log).kernel.tasks.eraseIdx i =
        client.kernel.tasks.eraseIdx i := List.eraseIdx_set_eq
    rw [rest] at moved
    exact moved

theorem state_dispatch (kernel : Kernel) (command : Command) :
    (kernel.dispatch command).state = (kernel.state.accept command).1 := by
  rcases accepted : kernel.state.accept command with ⟨state, flow?⟩
  cases flow? <;> simp [Kernel.dispatch, accepted, Kernel.spawn]

theorem tasks_dispatch (kernel : Kernel) (command : Command) :
    (kernel.dispatch command).tasks =
      kernel.tasks ++ ((kernel.state.accept command).2.map Stage.ofFlow).toList := by
  rcases accepted : kernel.state.accept command with ⟨state, flow?⟩
  cases flow? <;> simp [Kernel.dispatch, accepted, Kernel.spawn]

inductive Performs (client : Client) : Move → Client → Prop
  | dispatch (command : Command) (idle : client.awaited = none) :
    Performs client (.dispatch command) { client with
      kernel := client.kernel.dispatch command
      log := client.log ++ [.command client.kernel.state command] }
  | execute (command : Command) (idle : client.awaited = none) :
    Performs client (.execute command) (client.begin command)
  | receive (event : Event) (rest : List Event)
    (ready : client.awaited = none ∨ client.awaited = some .ended)
    (queued : client.kernel.outbox.channel.queue = event :: rest) :
    Performs client .receive { client with
      kernel.state := client.kernel.state.apply event, kernel.outbox.channel.queue := rest }
  | conclude (finished : client.awaited = some .ended ∧ client.kernel.outbox.channel.queue = [] ∨
      client.awaited = some .crashed) :
    Performs client .conclude { client with awaited := none }
  | edit (edit : String → String) (idle : client.awaited = none) :
    Performs client (.edit edit) { client with kernel := client.kernel.editDraft edit }
  | advance (flow : Option Nat) {stage next : Stage} {outbox : Outbox}
    (stands : client.stage? flow = some stage)
    (moved : stage.advance? client.kernel.outbox = some (next, outbox)) :
    Performs client (.advance flow)
      (client.follow flow next outbox (client.log ++ (stage.call?.map .call).toList))
  | answer (flow : Option Nat) (outcome : Outcome Unit) {mutation : Mutation}
    (stands : client.stage? flow = some (.awaiting mutation)) :
    Performs client (.answer flow outcome)
      (client.follow flow (.answered mutation outcome) client.kernel.outbox client.log)
  | answerList (flow : Option Nat) (outcome : Outcome (List Project)) {token : Token}
    (stands : client.stage? flow = some (.awaitingList token)) :
    Performs client (.answerList flow outcome)
      (client.follow flow (.listed token outcome) client.kernel.outbox client.log)
  | settle (i : Nat) {stage : Stage} (stands : client.kernel.tasks[i]? = some stage)
    (finished : stage.IsOver) :
    Performs client (.settle i) { client with
      kernel.tasks := client.kernel.tasks.eraseIdx i
      kernel.inFlight := client.kernel.inFlight - 1 }

theorem place_eq_follow (client : Client) (stage : Stage) (flow : Option Nat) :
    client.place stage flow = client.follow flow stage client.kernel.outbox client.log := by
  cases flow <;> rfl

theorem perform?_eq_some {client next : Client} {move : Move} :
    client.perform? move = some next ↔ client.Performs move next := by
  constructor
  · intro h
    cases move with
    | dispatch command | execute command | edit edit =>
      obtain ⟨idle, h⟩ := Option.ite_none_right_eq_some.1 h
      cases h
      constructor
      exact idle
    | receive =>
      obtain ⟨ready, h⟩ := Option.ite_none_right_eq_some.1 h
      simp only [receive?, Channel.receive?] at h
      split at h
      · cases h
      · rename_i event rest queued
        cases h
        exact .receive event rest ready queued
    | conclude =>
      obtain ⟨finished, h⟩ := Option.ite_none_right_eq_some.1 h
      cases h
      exact .conclude finished
    | advance flow =>
      simp only [perform?, advance?, Option.bind_eq_bind, Option.bind_eq_some_iff, Option.pure_def,
        Option.some.injEq] at h
      obtain ⟨stage, stands, ⟨stage', outbox⟩, moved, rfl⟩ := h
      exact .advance flow stands moved
    | answer flow outcome | answerList flow outcome =>
      simp only [perform?] at h
      split at h
      · rename_i stands
        cases h
        rw [place_eq_follow]
        constructor
        exact stands
      · cases h
    | settle i =>
      simp only [perform?, Kernel.settle?, Option.bind_eq_bind, Option.bind_eq_some_iff,
        Option.pure_def, Option.some.injEq] at h
      obtain ⟨kernel, ⟨stage, stands, settled⟩, rfl⟩ := h
      obtain ⟨finished, settled⟩ := Option.ite_none_right_eq_some.1 settled
      cases settled
      exact .settle i stands finished
  · intro h
    cases h with
    | dispatch command idle | execute command idle | edit edit idle => exact if_pos idle
    | receive event rest ready queued =>
      simp only [perform?, if_pos ready, receive?, Channel.receive?, queued]
      rfl
    | conclude finished => exact if_pos finished
    | advance flow stands moved =>
      simp only [perform?, advance?, stands, Option.bind_eq_bind, Option.bind_some, moved]
      rfl
    | answer flow outcome stands | answerList flow outcome stands =>
      simp only [perform?, stands, place_eq_follow]
    | settle i stands finished =>
      simp only [perform?, Kernel.settle?, stands, Option.bind_eq_bind, Option.bind_some,
        if_pos finished]
      rfl

theorem performAll?_keeps (holds : Client → Prop) {moves : List Move}
    (step : ∀ {client next : Client}, ∀ move ∈ moves, holds client →
      client.perform? move = some next → holds next)
    {client last : Client} (start : holds client) (run : client.performAll? moves = some last) :
    holds last :=
  foldlM_keeps holds step start run

/-! ## The kernel's own ways are interleavings -/

theorem applyTrail_fst (state : State) (events : List Event) :
    (state.applyTrail events).1 = state.applyAll events := by
  induction events generalizing state with
  | nil => rfl
  | cons event events ih => exact ih (state.apply event)

theorem tick_fst (kernel : Kernel) :
    kernel.tick.1 = { kernel with
      state := kernel.state.applyAll kernel.outbox.channel.queue
      outbox.channel.queue := [] } := by
  rw [← applyTrail_fst]
  rfl

theorem leadsTo_tick (client : Client)
    (ready : client.awaited = none ∨ client.awaited = some .ended) :
    client.LeadsTo { client with kernel := client.kernel.tick.1 } := by
  rw [tick_fst]
  generalize queued : client.kernel.outbox.channel.queue = queue
  induction queue generalizing client with
  | nil =>
    obtain ⟨⟨state, ⟨⟨capacity, _, isOpen⟩, issued⟩, tasks, inFlight⟩, awaited, log⟩ := client
    cases queued
    exact .refl _
  | cons event queue ih =>
    let next : Client := { client with
      kernel.state := client.kernel.state.apply event
      kernel.outbox.channel.queue := queue }
    have taken : client.perform? .receive = some next :=
      perform?_eq_some.2 (.receive event queue ready queued)
    exact .step .receive taken (ih next ready rfl)

/-- Alone with the server, a flow makes the moves that are open to it. -/
theorem leadsTo_run {σ : Type} (api : Api (StateM σ)) (server : σ) (client : Client)
    {flow : Option Nat} {stage : Stage} (stands : client.stage? flow = some stage) :
    ∃ log, client.LeadsTo (client.follow flow (stage.run api client.kernel.outbox server).1.1
      (stage.run api client.kernel.outbox server).1.2 log) := by
  have further {stage stage' : Stage} {outbox outbox' : Outbox} {log log' : List Happening}
      (before : client.LeadsTo (client.follow flow stage outbox log)) (move : Move)
      (moved : (client.follow flow stage outbox log).Performs move
        ((client.follow flow stage outbox log).follow flow stage' outbox' log')) :
      ∃ log, client.LeadsTo (client.follow flow stage' outbox' log) := by
    rw [follow_follow] at moved
    exact ⟨log', before.trans (.step move (perform?_eq_some.2 moved) (.refl _))⟩
  have there (stage' : Stage) (outbox : Outbox) (log : List Happening) :
      (client.follow flow stage' outbox log).stage? flow = some stage' := by
    have placed := stage?_place stands stage'
    cases flow <;> exact placed
  refine Stage.run_keeps
    (fun stage outbox _ => ∃ log, client.LeadsTo (client.follow flow stage outbox log))
    (fun moved before => ?_) (fun before => ?_) (fun before => ?_) ?_ rfl
  · obtain ⟨log, before⟩ := before
    exact further before _ (.advance flow (there _ _ log) moved)
  · obtain ⟨log, before⟩ := before
    exact further before _ (.answer flow _ (there _ _ log))
  · obtain ⟨log, before⟩ := before
    exact further before _ (.answerList flow _ (there _ _ log))
  · have same : client.follow flow stage client.kernel.outbox client.log = client := by
      have placed := place_self stands
      cases flow <;> exact placed
    exact ⟨client.log, same.symm ▸ .refl client⟩

theorem leadsTo_execute {σ : Type} {api : Api (StateM σ)} {command : Command}
    {server server' : σ} {kernel kernel' : Kernel} {trail : List Status} (log : List Happening)
    (executed : kernel.execute api command server = ((kernel', some trail), server')) :
    ∃ log', ({ kernel, log } : Client).LeadsTo { kernel := kernel', log := log' } := by
  rcases accepted : kernel.state.accept command with ⟨state, flow?⟩
  let begun : Client := {
    kernel := { kernel with state }, awaited := some (flow?.elim .ended .ofFlow)
    log := log ++ [.command kernel.state command] }
  have begins : ({ kernel, log } : Client).perform? (.execute command) = some begun := by
    simp only [perform?, begin, accepted]
    rfl
  suffices rest : ∃ log' last, last.tick.1 = kernel' ∧
      begun.LeadsTo { kernel := last, awaited := some .ended, log := log' } by
    obtain ⟨log', last, rfl, rest⟩ := rest
    have ticked := leadsTo_tick { kernel := last, awaited := some .ended, log := log' } (.inr rfl)
    have concluded : ({ kernel := last.tick.1, awaited := some .ended, log := log' } :
        Client).perform? .conclude = some { kernel := last.tick.1, log := log' } :=
      perform?_eq_some.2 (.conclude (.inl ⟨rfl, rfl⟩))
    have finished := ticked.trans (.step .conclude concluded (.refl _))
    exact ⟨log', .step _ begins (rest.trans finished)⟩
  cases flow? with
  | none =>
    rw [Kernel.execute, accepted] at executed
    cases executed
    exact ⟨begun.log, _, rfl, .refl begun⟩
  | some flow =>
    have waits : begun.stage? none = some (.ofFlow flow) := rfl
    obtain ⟨log', runs⟩ := leadsTo_run api server begun waits
    rcases ran : (Stage.ofFlow flow).run api kernel.outbox server with ⟨⟨stage, outbox⟩, server₁⟩
    rw [Kernel.execute_of_run accepted ran] at executed
    split at executed
    · rename_i ended
      cases executed
      have ran' : (Stage.ofFlow flow).run api begun.kernel.outbox server =
          ((.ended, outbox), server') := ended ▸ ran
      rw [ran'] at runs
      exact ⟨log', _, rfl, runs⟩
    · cases executed

theorem leadsTo_go {σ : Type} (api : Api (StateM σ)) (stages : List Stage) (kernel : Kernel)
    (server : σ) (log : List Happening) :
    ∃ log', ({ kernel := { kernel with tasks := kernel.tasks ++ stages }, log } : Client).LeadsTo
      { kernel := (Kernel.runTasks.go api stages kernel server).1, log := log' } := by
  induction stages generalizing kernel server log with
  | nil =>
    rw [List.append_nil]
    exact ⟨log, .refl _⟩
  | cons stage stages ih =>
    let client : Client := {
      kernel := { kernel with tasks := kernel.tasks ++ stage :: stages }, log }
    have stands : client.stage? (some kernel.tasks.length) = some stage := by
      simp [client, stage?]
    obtain ⟨log₁, runs⟩ := leadsTo_run api server client stands
    rcases ran : stage.run api kernel.outbox server with ⟨⟨stage', outbox⟩, server'⟩
    have ran' : stage.run api client.kernel.outbox server = ((stage', outbox), server') := ran
    have followed : client.follow (some kernel.tasks.length) stage' outbox log₁ =
        { kernel := { kernel with outbox, tasks := kernel.tasks ++ stage' :: stages },
          log := log₁ } := by
      simp [client, follow, place]
    rw [ran', followed] at runs
    rw [Kernel.go_cons ran]
    by_cases finished : stage'.IsOver
    · obtain ⟨log', rest⟩ := ih { kernel with outbox, inFlight := kernel.inFlight - 1 } server' log₁
      rw [if_pos finished]
      refine ⟨log', runs.trans (.step (.settle kernel.tasks.length) ?_ rest)⟩
      rw [perform?, Kernel.settle?_append_cons { kernel with outbox } stage', if_pos finished]
      rfl
    · obtain ⟨log', rest⟩ :=
        ih { kernel with outbox, tasks := kernel.tasks ++ [stage'] } server' log₁
      rw [List.append_assoc] at rest
      rw [if_neg finished]
      exact ⟨log', runs.trans rest⟩

theorem leadsTo_runTasks {σ : Type} (api : Api (StateM σ)) (kernel : Kernel) (server : σ)
    (log : List Happening) :
    ∃ log', ({ kernel, log } : Client).LeadsTo
      { kernel := (kernel.runTasks api server).1, log := log' } :=
  leadsTo_go api kernel.tasks { kernel with tasks := [] } server log

end Client

end ProjectClient

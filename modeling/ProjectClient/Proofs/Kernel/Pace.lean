import ProjectClient.Proofs.Kernel.Acts
import ProjectClient.Proofs.Kernel.Sides

/-! Two ways to give the same commands to a client: each is executed, or its flow is dispatched and
the events wait for whenever somebody ticks. As long as no command looks at what a waiting event may
change, both ways lead to the same. -/
namespace ProjectClient

/-- The calls to the server all come back, if only with an error. -/
structure Api.NeverCrashes {σ : Type} (api : Api (StateM σ)) : Prop where
  list (server : σ) : (api.list server).1 ≠ .crashed
  mutate (mutation : Mutation) (server : σ) : (api.mutate mutation server).1 ≠ .crashed

/-- The command looks at nothing that a flow reports, and changes no such thing at once. -/
def Command.IsOneSided : Command → Prop
  | .requestDelete _ => False
  | .clearStatus => False
  | _ => True

inductive Input where
  | command (command : Command)
  | edit (edit : String → String)
  | tick

namespace Input

def dispatched : Input → Act
  | command given => .dispatch given
  | edit change => .edit change
  | tick => .tick

def executed? : Input → Option Act
  | command given => some (.execute given)
  | edit change => some (.edit change)
  | tick => none

end Input

section Crash

variable {σ : Type} {api : Api (StateM σ)}

theorem Api.NeverCrashes.logged (sound : api.NeverCrashes) : api.logged.NeverCrashes where
  list world := sound.list world.server
  mutate mutation world := sound.mutate mutation world.server

theorem Mutation.isWhole_ask (sound : api.NeverCrashes) (mutation : Mutation) (server : σ) :
    (mutation.ask api server).1.IsWhole := by
  rcases answer : api.mutate mutation server with ⟨outcome, server'⟩
  cases outcome with
  | ok =>
    rw [ask_of_ok answer]
    exact sound.list server'
  | failed error =>
    rw [ask_of_failed answer]
    trivial
  | crashed => exact absurd (congrArg Prod.fst answer) (sound.mutate mutation server)

theorem Flow.isWhole_ask (sound : api.NeverCrashes) (flow : Flow) (server : σ) :
    (flow.ask api server).1.IsWhole := by
  cases flow with
  | refresh => exact sound.list server
  | create name => exact Mutation.isWhole_ask sound (.create name) server
  | delete target => exact Mutation.isWhole_ask sound (.delete target.id) server

end Crash

/-! ## The two sides -/

theorem Outcome.isSent_report? (token : Token) (listed : Outcome (List Project)) :
    ∀ event ∈ listed.report? token, event.IsSent := by
  intro event reported
  cases listed with
  | ok projects => exact ⟨.delivering token (some projects), reported⟩
  | failed error => exact ⟨.delivering token none, reported⟩
  | crashed => cases reported

theorem Token.isSent_events (token : Token) (listed : Outcome (List Project)) :
    ∀ event ∈ token.events listed, event.IsSent := by
  rw [Token.events, List.forall_mem_cons]
  refine ⟨⟨.announcing token, rfl⟩, fun event reported => ?_⟩
  exact listed.isSent_report? token event (Option.mem_toList.1 reported)

theorem Course.isSent_events (course : Course) (token : Token) :
    ∀ event ∈ course.events token, event.IsSent := by
  cases course with
  | refreshed listed => exact token.isSent_events listed
  | refused mutation error =>
    exact List.forall_mem_singleton.2 ⟨.reporting mutation false, rfl⟩
  | lost => nofun
  | changed mutation listed =>
    exact List.forall_mem_cons.2 ⟨⟨.reporting mutation true, rfl⟩, token.isSent_events listed⟩

namespace State

theorem applyReporting_beside (user flows : State) {event : Event} (sent : event.IsSent) :
    (user.beside flows).applyReporting event =
      (user.beside (flows.applyReporting event).1, (flows.applyReporting event).2) := by
  rw [applyReporting, apply_beside user flows sent]
  rfl

theorem applyTrail_beside (user flows : State) {events : List Event}
    (sent : ∀ event ∈ events, event.IsSent) :
    (user.beside flows).applyTrail events =
      (user.beside (flows.applyTrail events).1, (flows.applyTrail events).2) := by
  induction events generalizing flows with
  | nil => rfl
  | cons event events ih =>
    rw [List.forall_mem_cons] at sent
    simp only [applyTrail, applyReporting_beside user flows sent.1, ih _ sent.2]

theorem applyTrail_append (state : State) (first second : List Event) :
    state.applyTrail (first ++ second) =
      (((state.applyTrail first).1.applyTrail second).1,
        (state.applyTrail first).2 ++ ((state.applyTrail first).1.applyTrail second).2) := by
  induction first generalizing state with
  | nil => rfl
  | cons event first ih => simp only [List.cons_append, applyTrail, ih, List.append_assoc]

theorem applyTrail_singleton (state : State) (event : Event) :
    state.applyTrail [event] = (state.apply event, (state.applyReporting event).2.toList) :=
  congrArg (state.apply event, ·) (List.append_nil _)

theorem submitDraft_beside (user flows : State) :
    (user.beside flows).submitDraft =
      (user.submitDraft.1.beside flows, user.submitDraft.2) := by
  have same : (user.beside flows).createDraft = user.createDraft := rfl
  by_cases blank : Text.IsBlank user.createDraft
  · rw [submitDraft, submitDraft, same, if_pos blank, if_pos blank]
  · rw [submitDraft, submitDraft, same, if_neg blank, if_neg blank]
    rfl

theorem accept_beside (user flows : State) {command : Command} (oneSided : command.IsOneSided) :
    (user.beside flows).accept command =
      ((user.accept command).1.beside flows, (user.accept command).2) := by
  cases command with
  | loadInitialState | refresh => rfl
  | submitCreate => exact user.submitDraft_beside flows
  | createProject name => exact (user.editDraft fun _ => name).submitDraft_beside flows
  | confirmDelete =>
    have same : (user.beside flows).pendingDelete = user.pendingDelete := rfl
    simp only [accept, same]
    cases user.pendingDelete <;> rfl
  | cancelDelete =>
    have same : (user.beside flows).pendingDelete = user.pendingDelete := rfl
    simp only [accept, same]
    split <;> rfl
  | requestDelete | clearStatus => exact oneSided.elim

end State

namespace Kernel

structure IsIdle (kernel : Kernel) : Prop where
  resting : kernel.tasks = []
  listening : kernel.outbox.channel.isOpen
  capacity : kernel.outbox.channel.capacity = 100
  held : kernel.outbox.channel.queue.length ≤ 100
  sent : ∀ event ∈ kernel.outbox.channel.queue, event.IsSent

namespace IsIdle

variable {kernel : Kernel}

theorem tick (idle : kernel.IsIdle) : kernel.tick.1.IsIdle where
  resting := idle.resting
  listening := idle.listening
  capacity := idle.capacity
  held := Nat.zero_le _
  sent := nofun

theorem turn (idle : kernel.IsIdle) (state : State) : { kernel with state }.IsIdle where
  __ := idle

theorem edit (idle : kernel.IsIdle) (edit : String → String) : (kernel.editDraft edit).IsIdle :=
  idle.turn _

theorem outbox_holds_nil (idle : kernel.IsIdle) : kernel.outbox.Holds [] := by
  rw [Outbox.Holds, idle.capacity]
  exact idle.held

theorem leaves (idle : kernel.IsIdle) {course : Course}
    (held : kernel.outbox.Holds (course.events (kernel.outbox.issued + 1))) :
    { kernel with outbox := course.leaves kernel.outbox }.IsIdle where
  resting := idle.resting
  listening := idle.listening
  capacity := idle.capacity
  held := by
    rw [Outbox.Holds, idle.capacity, ← List.length_append] at held
    exact held
  sent event queued := by
    rcases List.mem_append.1 queued with old | new
    · exact idle.sent event old
    · exact course.isSent_events _ event new

end IsIdle

/-- What the user's side does to the state may come before the waiting events or behind them. -/
theorem tick_turn {kernel : Kernel} (idle : kernel.IsIdle) (change : State → State)
    (oneSided : ∀ user flows : State, change (user.beside flows) = (change user).beside flows) :
    { kernel with state := change kernel.state }.tick =
      ({ kernel.tick.1 with state := change kernel.tick.1.state }, kernel.tick.2) := by
  have apart := kernel.state.applyTrail_beside kernel.state idle.sent
  have apart' := (change kernel.state).applyTrail_beside kernel.state idle.sent
  rw [State.beside_self] at apart
  rw [← oneSided, State.beside_self] at apart'
  have last : kernel.tick.1.state =
      kernel.state.beside (kernel.state.applyTrail kernel.outbox.channel.queue).1 :=
    congrArg Prod.fst apart
  rw [last, oneSided, Kernel.tick, apart']
  rfl

theorem tick_edit {kernel : Kernel} (idle : kernel.IsIdle) (edit : String → String) :
    (kernel.editDraft edit).tick = (kernel.tick.1.editDraft edit, kernel.tick.2) :=
  tick_turn idle (·.editDraft edit) fun _ _ => rfl

theorem tick_accept {kernel : Kernel} (idle : kernel.IsIdle) {command : Command}
    (oneSided : command.IsOneSided) :
    { kernel with state := (kernel.state.accept command).1 }.tick =
        ({ kernel.tick.1 with state := (kernel.tick.1.state.accept command).1 }, kernel.tick.2) ∧
      (kernel.tick.1.state.accept command).2 = (kernel.state.accept command).2 := by
  have apart := kernel.state.applyTrail_beside kernel.state idle.sent
  rw [State.beside_self] at apart
  have last : kernel.tick.1.state =
      kernel.state.beside (kernel.state.applyTrail kernel.outbox.channel.queue).1 :=
    congrArg Prod.fst apart
  refine ⟨tick_turn idle (fun state => (state.accept command).1) ?_, ?_⟩
  · intro user flows
    rw [State.accept_beside user flows oneSided]
  · rw [last, State.accept_beside _ _ oneSided]

/-- The events that a flow leaves may be applied together with those that waited before. -/
theorem tick_leaves (kernel : Kernel) (course : Course) :
    { kernel with outbox := course.leaves kernel.outbox }.tick =
      ({ kernel.tick.1 with outbox := course.leaves kernel.tick.1.outbox }.tick.1,
        kernel.tick.2 ++
          { kernel.tick.1 with outbox := course.leaves kernel.tick.1.outbox }.tick.2) := by
  have split := kernel.state.applyTrail_append kernel.outbox.channel.queue
    (course.events (kernel.outbox.issued + 1))
  rw [Kernel.tick]
  simp only [Course.leaves, Outbox.push, split]
  rfl

/-! ## One command -/

section Running

variable {σ : Type} {api : Api (StateM σ)} {kernel : Kernel} {server : σ} {command : Command}
  {state : State} {flow : Flow}

theorem act?_dispatch_of_none (idle : kernel.IsIdle)
    (accepted : kernel.state.accept command = (state, none)) :
    kernel.act? api server (.dispatch command) = some ({ kernel with state }, [], server) := by
  have dispatched : kernel.dispatch command = { kernel with state } := by
    rw [dispatch, accepted]
    rfl
  have still : { kernel with state }.runTasks api server = ({ kernel with state }, server) := by
    rw [runTasks]
    simp only [idle.resting]
    rfl
  rw [act?, dispatched, still]
  exact if_pos idle.resting

theorem act?_dispatch_of_some (idle : kernel.IsIdle)
    (accepted : kernel.state.accept command = (state, some flow))
    (held : kernel.outbox.Holds ((flow.ask api server).1.events (kernel.outbox.issued + 1))) :
    kernel.act? api server (.dispatch command) =
      some ({ kernel with state, outbox := (flow.ask api server).1.leaves kernel.outbox }, [],
        (flow.ask api server).2) := by
  have dispatched : kernel.dispatch command = { kernel with state }.spawn flow := by
    rw [dispatch, accepted]
    rfl
  have alone : ({ kernel with state }.spawn flow).tasks = [.ofFlow flow] := by
    rw [spawn, idle.resting]
    rfl
  have ran := (Stage.run_ofFlow api idle.listening idle.outbox_holds_nil flow server).1 held
  rw [act?, dispatched, runTasks_of_run alone ran, if_pos (flow.ask api server).1.isOver_stage]
  simp only [spawn, idle.resting]
  rfl

theorem act?_execute_of_none (accepted : kernel.state.accept command = (state, none)) :
    kernel.act? api server (.execute command) =
      some ({ kernel with state }.tick.1, { kernel with state }.tick.2, server) := by
  rw [act?, execute, accepted]
  rfl

theorem act?_execute_of_some (idle : kernel.IsIdle)
    (accepted : kernel.state.accept command = (state, some flow))
    (whole : (flow.ask api server).1.IsWhole)
    (held : kernel.outbox.Holds ((flow.ask api server).1.events (kernel.outbox.issued + 1))) :
    kernel.act? api server (.execute command) =
      let last : Kernel :=
        { kernel with state, outbox := (flow.ask api server).1.leaves kernel.outbox }
      some (last.tick.1, last.tick.2, (flow.ask api server).2) := by
  have ran := (Stage.run_ofFlow api idle.listening idle.outbox_holds_nil flow server).1 held
  have ended := Course.stage_eq_ended_iff.2 whole
  rw [act?, execute_of_run accepted ran, if_pos ended]
  rfl

end Running

/-! ## All commands -/

section Paths

variable {σ : Type} (api : Api (StateM σ)) (kernel : Kernel) (server : σ)

/-- How many events there are to wait in the queue when the flow of a command has sent its own. -/
def crowd (command : Command) : Nat :=
  kernel.outbox.channel.queue.length +
    (kernel.state.accept command).2.elim 0 fun flow =>
      ((flow.ask api server).1.events (kernel.outbox.issued + 1)).length

/-- The queue never comes to hold more than a hundred events while the commands are dispatched. -/
def NeverCrowded (inputs : List Input) : Prop :=
  ∀ earlier command later, inputs = earlier ++ .command command :: later →
    ∀ next trail server',
      kernel.acts? api server (earlier.map Input.dispatched) = some (next, trail, server') →
        next.crowd api server' command ≤ 100

variable {api kernel server}

theorem NeverCrowded.head {command : Command} {inputs : List Input}
    (room : kernel.NeverCrowded api server (.command command :: inputs)) :
    kernel.crowd api server command ≤ 100 :=
  room [] command inputs rfl kernel [] server rfl

theorem NeverCrowded.tail {input : Input} {inputs : List Input} {next : Kernel}
    {trail : List Status} {server' : σ} (room : kernel.NeverCrowded api server (input :: inputs))
    (first : kernel.act? api server input.dispatched = some (next, trail, server')) :
    next.NeverCrowded api server' inputs := by
  rintro earlier command later rfl last trail' server'' ran
  refine room (input :: earlier) command later rfl last (trail ++ trail') server'' ?_
  rw [List.map_cons, acts?_cons first, ran]
  rfl

variable (api kernel server) in
theorem crowd_le (command : Command) :
    kernel.crowd api server command ≤ kernel.outbox.channel.queue.length + 3 := by
  rw [crowd]
  cases (kernel.state.accept command).2 with
  | none => exact Nat.le_add_right _ 3
  | some flow =>
    have few := (flow.ask api server).1.length_reports_le
    rw [← (flow.ask api server).1.length_events (kernel.outbox.issued + 1)] at few
    exact Nat.add_le_add_left few _

/-- A command that is dispatched and applied later does what it does when it is executed behind a
tick. -/
theorem dispatch_behind_tick (sound : api.NeverCrashes) (idle : kernel.IsIdle) {command : Command}
    (oneSided : command.IsOneSided) (fits : kernel.crowd api server command ≤ 100) :
    ∃ next written server',
      kernel.act? api server (.dispatch command) = some (next, [], server') ∧ next.IsIdle ∧
      kernel.tick.1.act? api server (.execute command) = some (next.tick.1, written, server') ∧
      next.tick.2 = kernel.tick.2 ++ written := by
  obtain ⟨ticked, flow⟩ := tick_accept idle oneSided
  rcases accepted : kernel.state.accept command with ⟨state, flow?⟩
  rcases accepted' : kernel.tick.1.state.accept command with ⟨state', flow?'⟩
  rw [accepted, accepted'] at ticked flow
  obtain rfl : flow?' = flow? := flow
  rw [crowd, accepted] at fits
  cases flow?' with
  | none =>
    refine ⟨_, [], server, act?_dispatch_of_none idle accepted, idle.turn state, ?_, ?_⟩
    · rw [act?_execute_of_none accepted', ticked]
      rfl
    · rw [ticked, List.append_nil]
  | some flow =>
    have held : kernel.outbox.Holds
        ((flow.ask api server).1.events (kernel.outbox.issued + 1)) := by
      rw [Outbox.Holds, idle.capacity]
      exact fits
    have held' : kernel.tick.1.outbox.Holds
        ((flow.ask api server).1.events (kernel.tick.1.outbox.issued + 1)) := by
      rw [Outbox.Holds, idle.tick.capacity]
      exact Nat.le_trans (Nat.add_le_add_right (Nat.zero_le _) _) fits
    let last : Kernel := { kernel.tick.1 with
      state := state', outbox := (flow.ask api server).1.leaves kernel.tick.1.outbox }
    have behind :
        { kernel with state, outbox := (flow.ask api server).1.leaves kernel.outbox }.tick =
          (last.tick.1, kernel.tick.2 ++ last.tick.2) := by
      rw [tick_leaves { kernel with state }, ticked]
    refine ⟨_, last.tick.2, _, act?_dispatch_of_some idle accepted held,
      (idle.turn state).leaves held, ?_, ?_⟩
    · rw [act?_execute_of_some idle.tick accepted' (flow.isWhole_ask sound server) held', behind]
    · rw [behind]

/-- The kernel that ticks from time to time is always one tick behind the one that executes. -/
theorem paths_meet (sound : api.NeverCrashes) (idle : kernel.IsIdle) {inputs : List Input}
    (oneSided : ∀ command, .command command ∈ inputs → command.IsOneSided)
    (room : kernel.NeverCrowded api server inputs) :
    ∃ last later server',
      kernel.tick.1.acts? api server (inputs.filterMap Input.executed?) =
        some (last, later, server') ∧
      kernel.acts? api server (inputs.map Input.dispatched ++ [.tick]) =
        some (last, kernel.tick.2 ++ later, server') := by
  -- Both runs are looked at behind a tick. So what the paced one still has in its queue is applied
  -- in the other, and a tick of its own is no step of the comparison.
  induction inputs generalizing kernel server with
  | nil => exact ⟨kernel.tick.1, [], server, rfl, rfl⟩
  | cons input inputs ih =>
    have others : ∀ command, .command command ∈ inputs → command.IsOneSided :=
      fun command among => oneSided command (List.mem_cons_of_mem _ among)
    cases input with
    | tick =>
      have first : kernel.act? api server .tick = some (kernel.tick.1, kernel.tick.2, server) := rfl
      obtain ⟨last, later, server', prompt, paced⟩ := ih idle.tick others (room.tail first)
      refine ⟨last, later, server', prompt, ?_⟩
      rw [List.map_cons, List.cons_append, Input.dispatched, acts?_cons first, paced]
      rfl
    | edit change =>
      have first : kernel.act? api server (.edit change) =
          some (kernel.editDraft change, [], server) := rfl
      have own : kernel.tick.1.act? api server (.edit change) =
          some (kernel.tick.1.editDraft change, [], server) := rfl
      obtain ⟨last, later, server', prompt, paced⟩ := ih (idle.edit change) others (room.tail first)
      rw [tick_edit idle] at prompt paced
      have next : Input.executed? (.edit change) = some (.edit change) := rfl
      refine ⟨last, later, server', ?_, ?_⟩
      · rw [List.filterMap_cons_some next, acts?_cons own, prompt]
        rfl
      · rw [List.map_cons, List.cons_append, Input.dispatched, acts?_cons first, paced]
        rfl
    | command command =>
      obtain ⟨kernel', written, server₁, first, idle', own, behind⟩ :=
        dispatch_behind_tick sound idle (oneSided command List.mem_cons_self) room.head
      obtain ⟨last, later, server', prompt, paced⟩ := ih idle' others (room.tail first)
      have next : Input.executed? (.command command) = some (.execute command) := rfl
      refine ⟨last, written ++ later, server', ?_, ?_⟩
      · rw [List.filterMap_cons_some next, acts?_cons own, prompt]
        rfl
      · rw [List.map_cons, List.cons_append, Input.dispatched, acts?_cons first, paced, behind,
          List.append_assoc]
        rfl

theorem length_queue_of_act? (idle : kernel.IsIdle) {input : Input} {next : Kernel}
    {trail : List Status} {server' : σ}
    (few : kernel.outbox.channel.queue.length + 3 ≤ 100)
    (acted : kernel.act? api server input.dispatched = some (next, trail, server')) :
    next.IsIdle ∧
      next.outbox.channel.queue.length ≤ kernel.outbox.channel.queue.length + 3 := by
  cases input with
  | tick =>
    cases acted
    exact ⟨idle.tick, Nat.zero_le _⟩
  | edit change =>
    cases acted
    exact ⟨idle.edit change, Nat.le_add_right _ _⟩
  | command command =>
    have bound := Nat.le_trans (kernel.crowd_le api server command) few
    have most := kernel.crowd_le api server command
    rcases accepted : kernel.state.accept command with ⟨state, _ | flow⟩
    · cases (act?_dispatch_of_none idle accepted).symm.trans acted
      exact ⟨idle.turn state, Nat.le_add_right _ _⟩
    · rw [crowd, accepted] at bound most
      have held : kernel.outbox.Holds
          ((flow.ask api server).1.events (kernel.outbox.issued + 1)) := by
        rw [Outbox.Holds, idle.capacity]
        exact bound
      cases (act?_dispatch_of_some idle accepted held).symm.trans acted
      refine ⟨(idle.turn state).leaves held, ?_⟩
      rw [Course.leaves, Outbox.push, List.length_append]
      exact most

theorem length_queue_of_acts? (idle : kernel.IsIdle) {inputs : List Input} {next : Kernel}
    {trail : List Status} {server' : σ}
    (acted : kernel.acts? api server (inputs.map Input.dispatched) = some (next, trail, server'))
    (few : kernel.outbox.channel.queue.length + 3 * inputs.length ≤ 100) :
    next.outbox.channel.queue.length ≤
      kernel.outbox.channel.queue.length + 3 * inputs.length := by
  induction inputs generalizing kernel server trail with
  | nil =>
    cases acted
    exact Nat.le_refl _
  | cons input inputs ih =>
    rw [List.length_cons] at few ⊢
    rcases first : kernel.act? api server input.dispatched with _ | ⟨kernel', written, server₁⟩
    · rw [List.map_cons, acts?, first] at acted
      cases acted
    · rw [List.map_cons, acts?_cons first, Option.map_eq_some_iff] at acted
      obtain ⟨⟨last, later, server₂⟩, rest, same⟩ := acted
      cases same
      obtain ⟨idle', most⟩ := length_queue_of_act? idle (by omega) first
      have bound := ih idle' rest (by omega)
      omega

theorem neverCrowded_of_few (idle : kernel.IsIdle) {inputs : List Input}
    (few : kernel.outbox.channel.queue.length + 3 * inputs.length ≤ 100) :
    kernel.NeverCrowded api server inputs := by
  rintro earlier command later rfl next trail server' ran
  have bound := length_queue_of_acts? idle ran (by
    simp only [List.length_append, List.length_cons] at few
    omega)
  have fits := next.crowd_le api server' command
  simp only [List.length_append, List.length_cons] at few
  omega

end Paths

end Kernel

variable {σ : Type} {api : Api (StateM σ)} {kernel : Kernel}

/-- It makes no difference when the reports of flows are applied. A client whose user dispatches
commands, waits for each flow and ticks at any points and at the end comes to the same state, has
answered with the same statuses and asked the server for the same as one that executes each of the
commands. -/
theorem dispatch_agrees_with_execute (sound : api.NeverCrashes) (resting : kernel.tasks = [])
    (empty : kernel.outbox.channel = { capacity := 100 }) (server : σ) {inputs : List Input}
    (oneSided : ∀ command, .command command ∈ inputs → command.IsOneSided)
    (room : kernel.NeverCrowded api.logged { server } inputs) :
    ∃ last trail world,
      kernel.acts? api.logged { server } (inputs.map Input.dispatched ++ [.tick]) =
        some (last, trail, world) ∧
      kernel.acts? api.logged { server } (inputs.filterMap Input.executed?) =
        some (last, trail, world) := by
  have idle : kernel.IsIdle := by
    constructor
    · exact resting
    all_goals simp [empty]
  obtain ⟨last, trail, world, prompt, paced⟩ :=
    Kernel.paths_meet sound.logged idle oneSided room
  have ticked : kernel.tick = (kernel, []) := by
    obtain ⟨state, ⟨channel, issued⟩, tasks, inFlight⟩ := kernel
    obtain rfl : channel = { capacity := 100 } := empty
    rfl
  rw [ticked] at prompt paced
  exact ⟨last, trail, world, paced, prompt⟩

def Api.fickle : Api (StateM Bool) where
  list refuses :=
    (if refuses then .failed (.http 503) else .ok [{ id := "p1", name := "Site" }], !refuses)
  mutate _ refuses := (if refuses then .failed (.http 503) else .ok (), !refuses)

/-- The state knows a refresh of another client, so the start of the first refresh does not count
but its failure does. The next change is made while all of this still waits. -/
theorem dispatch_agrees_with_execute_of_fickle :
    let kernel : Kernel :=
      { state := { pendingDelete := some ⟨"p1", "Site"⟩, latestRefresh := some 1 } }
    let inputs : List Input :=
      [.command .confirmDelete, .edit (· ++ " Docs "), .command .submitCreate]
    let trail : List Status := [.deleted, .loadFailed, .created, .loading, .loadFailed]
    let world : Logged Bool :=
      { server := false, calls := [.delete "p1", .list, .create "Docs", .list], failures := 2 }
    Api.fickle.NeverCrashes ∧ kernel.NeverCrowded Api.fickle.logged { server := false } inputs ∧
    ∃ last,
      kernel.acts? Api.fickle.logged { server := false } (inputs.map Input.dispatched ++ [.tick]) =
        some (last, trail, world) ∧
      kernel.acts? Api.fickle.logged { server := false } (inputs.filterMap Input.executed?) =
        some (last, trail, world) := by
  intro kernel inputs trail world
  have sound : Api.fickle.NeverCrashes := by
    constructor
    · decide
    · intro mutation refuses
      cases refuses <;> nofun
  have idle : kernel.IsIdle := ⟨rfl, rfl, rfl, Nat.zero_le _, nofun⟩
  have room : kernel.NeverCrowded Api.fickle.logged { server := false } inputs :=
    Kernel.neverCrowded_of_few idle (by decide)
  have oneSided : ∀ command, .command command ∈ inputs → command.IsOneSided := by
    simp [inputs, Command.IsOneSided]
  obtain ⟨last, trail', world', paced, prompt⟩ :=
    dispatch_agrees_with_execute sound rfl rfl false oneSided room
  have seen : (kernel.acts? Api.fickle.logged { server := false }
      (inputs.filterMap Input.executed?)).map Prod.snd = some (trail, world) := by decide +kernel
  rw [prompt] at seen
  cases seen
  exact ⟨sound, room, last, paced, prompt⟩

end ProjectClient

import ProjectClient.Proofs.Flow.Room
import ProjectClient.Proofs.Kernel.Client

/-! Whether an executed command comes back. Only a tick takes events out of the channel, and there
is none before the executed flow has ended. So the flow comes to its end in every interleaving if
the channel has room for all that is queued and may still be sent, and else it may wait forever. -/
namespace ProjectClient

namespace Client

def total (f : Stage → Nat) (client : Client) : Nat :=
  client.awaited.elim 0 f + Stage.total f client.kernel.tasks

/-- The events that are queued, and the most that flows may still send. -/
def load (client : Client) : Nat :=
  client.kernel.outbox.channel.queue.length + client.total Stage.owes

def stepsLeft (client : Client) : Nat :=
  client.load + client.total Stage.rank + client.kernel.tasks.length

/-- The executed flow has to send an event and finds the channel full. -/
def Stuck (client : Client) : Prop :=
  ∃ stage event, client.awaited = some stage ∧ stage.event? = some event ∧
    client.kernel.outbox.channel.isOpen ∧ ¬ client.kernel.outbox.channel.HasRoom

theorem total_follow {client : Client} {flow : Option Nat} {stage : Stage}
    (stands : client.stage? flow = some stage) (f : Stage → Nat) (other : Stage) (outbox : Outbox)
    (log : List Happening) :
    (client.follow flow other outbox log).total f + f stage = client.total f + f other := by
  cases flow with
  | none =>
    have waits : client.awaited = some stage := stands
    simp only [total, follow, place, waits, Option.elim_some]
    omega
  | some i =>
    have rest := Stage.total_set (f := f) stands other
    simp only [total, follow, place] at rest ⊢
    omega

inductive RoomStep (client : Client) (move : Move) (next : Client) : Prop
  | turns (idle : client.awaited = none ∨ move = .conclude)
      (outbox : next.kernel.outbox = client.kernel.outbox)
  | goes (flow : Option Nat) (stage stage' : Stage) (outbox : Outbox) (log : List Happening)
      (stands : client.stage? flow = some stage)
      (goes : stage.Goes client.kernel.outbox stage' outbox)
      (same : next = client.follow flow stage' outbox log)
  | receives (ready : client.awaited = none ∨ client.awaited = some .ended)
      (event : Event) (rest : List Event)
      (queued : client.kernel.outbox.channel.queue = event :: rest)
      (same : next = { client with
        kernel.state := client.kernel.state.apply event
        kernel.outbox.channel.queue := rest })
  | settles (i : Nat) (stage : Stage)
      (stands : client.kernel.tasks[i]? = some stage)
      (outbox : next.kernel.outbox = client.kernel.outbox)
      (tasks : next.kernel.tasks = client.kernel.tasks.eraseIdx i)
      (awaited : next.awaited = client.awaited)

structure Sound (client : Client) : Prop where
  listening : client.kernel.outbox.channel.isOpen
  capacity : client.kernel.outbox.channel.capacity = 100
  held : client.kernel.outbox.Holds []

section Step

variable {client next : Client} {move : Move} {stage : Stage}

theorem outbox_dispatch (kernel : Kernel) (command : Command) :
    (kernel.dispatch command).outbox = kernel.outbox := by
  rcases accepted : kernel.state.accept command with ⟨state, flow?⟩
  cases flow? <;> simp [Kernel.dispatch, accepted, Kernel.spawn]

theorem roomStep_of_perform? (listening : client.kernel.outbox.channel.isOpen)
    (h : client.perform? move = some next) : client.RoomStep move next := by
  cases perform?_eq_some.1 h with
  | dispatch command idle => exact .turns (.inl idle) (outbox_dispatch client.kernel command)
  | execute command idle | edit edit idle => exact .turns (.inl idle) rfl
  | conclude finished => exact .turns (.inr rfl) rfl
  | receive event rest ready queued => exact .receives ready event rest queued rfl
  | advance flow stands moved =>
    obtain ⟨deed, -, does, shares, -⟩ := Stage.does_of_advance? moved
    exact .goes flow _ _ _ _ stands (Stage.goes_of_does listening does shares) rfl
  | @answer flow outcome mutation stands =>
    have goes := Stage.goes_of_does listening (.answer mutation outcome) rfl
    exact .goes flow _ _ _ _ stands goes rfl
  | @answerList flow outcome token stands =>
    have goes := Stage.goes_of_does listening (.list token outcome) rfl
    exact .goes flow _ _ _ _ stands goes rfl
  | settle i stands finished => exact .settles i _ stands rfl rfl rfl

theorem RoomStep.sound (step : client.RoomStep move next) (sound : client.Sound) :
    next.Sound := by
  cases step with
  | turns idle outbox | settles i stage stands outbox tasks awaited =>
    constructor
    · rw [outbox]
      exact sound.listening
    · rw [outbox]
      exact sound.capacity
    · rw [outbox]
      exact sound.held
  | goes flow stage stage' outbox log stands goes same =>
    subst same
    refine ⟨?_, goes.capacity.trans sound.capacity, goes.held sound.held⟩
    exact goes.listening.trans sound.listening
  | receives ready event rest queued same =>
    subst same
    have held := sound.held
    refine ⟨sound.listening, sound.capacity, ?_⟩
    simp only [Outbox.Holds, queued, List.length_cons, List.length_nil] at held ⊢
    omega

theorem Sound.performAll? {moves : List Move} (sound : client.Sound)
    (run : client.performAll? moves = some next) : next.Sound := by
  refine performAll?_keeps Sound (fun _ _ sound moved => ?_) sound run
  exact (roomStep_of_perform? sound.listening moved).sound sound

theorem Sound.hasRoom_iff (sound : client.Sound) :
    client.kernel.outbox.channel.HasRoom ↔
      client.kernel.outbox.channel.queue.length < 100 := by
  rw [Channel.HasRoom, sound.capacity]

/-! ## While a command is executed -/

theorem RoomStep.busy (step : client.RoomStep move next) (busy : client.awaited ≠ none)
    (other : move ≠ .conclude) : next.awaited ≠ none := by
  cases step with
  | turns idle outbox => exact absurd idle (not_or.2 ⟨busy, other⟩)
  | goes flow stage stage' outbox log stands goes same =>
    subst same
    cases flow with
    | none => exact Option.some_ne_none _
    | some i => exact busy
  | receives ready event rest queued same =>
    subst same
    exact busy
  | settles i stage stands outbox tasks awaited =>
    rw [awaited]
    exact busy

theorem total_settle {i : Nat} (f : Stage → Nat) (stands : client.kernel.tasks[i]? = some stage)
    (tasks : next.kernel.tasks = client.kernel.tasks.eraseIdx i)
    (awaited : next.awaited = client.awaited) :
    next.total f + f stage = client.total f := by
  have rest := Stage.total_eraseIdx (f := f) stands
  simp only [total, tasks, awaited]
  omega

/-- Nobody gives the channel more to hold, and every step brings the end nearer. -/
theorem RoomStep.load_le (step : client.RoomStep move next) (busy : client.awaited ≠ none)
    (other : move ≠ .conclude) :
    next.load ≤ client.load ∧ next.stepsLeft < client.stepsLeft := by
  cases step with
  | turns idle outbox => exact absurd idle (not_or.2 ⟨busy, other⟩)
  | goes flow stage stage' outbox log stands goes same =>
    subst same
    have owed := total_follow stands Stage.owes stage' outbox log
    have ranks := total_follow stands Stage.rank stage' outbox log
    have queue : (client.follow flow stage' outbox log).kernel.outbox = outbox := rfl
    have tasks : (client.follow flow stage' outbox log).kernel.tasks.length =
        client.kernel.tasks.length := by
      cases flow with
      | none => rfl
      | some i => simp [follow, place]
    have load := goes.load
    have lower := goes.lower
    simp only [stepsLeft, Client.load, queue, tasks]
    omega
  | receives ready event rest queued same =>
    subst same
    simp only [stepsLeft, Client.load, total, queued, List.length_cons]
    omega
  | settles i stage stands outbox tasks awaited =>
    have owed := total_settle Stage.owes stands tasks awaited
    have ranks := total_settle Stage.rank stands tasks awaited
    have inside := (List.getElem?_eq_some_iff.1 stands).1
    have length : next.kernel.tasks.length + 1 = client.kernel.tasks.length := by
      rw [tasks, List.length_eraseIdx_of_lt inside]
      omega
    simp only [stepsLeft, Client.load, outbox]
    omega

theorem RoomStep.ended (step : client.RoomStep move next) (ended : client.awaited = some .ended)
    (other : move ≠ .conclude) : next.awaited = some .ended := by
  cases step with
  | turns idle outbox =>
    rcases idle with idle | concludes
    · cases ended.symm.trans idle
    · exact absurd concludes other
  | goes flow stage stage' outbox log stands goes same =>
    subst same
    cases flow with
    | none =>
      obtain rfl := Option.some.inj (ended.symm.trans stands)
      exact absurd goes.lower (Nat.not_lt_zero _)
    | some i => exact ended
  | receives ready event rest queued same =>
    subst same
    exact ended
  | settles i stage stands outbox tasks awaited => exact awaited.trans ended

structure Execution (client last : Client) (steps : Nat) : Prop where
  sound : last.Sound
  busy : last.awaited ≠ none
  load_le : last.load ≤ client.load
  nearer : steps + last.stepsLeft ≤ client.stepsLeft
  ended : client.awaited = some .ended → last.awaited = some .ended

theorem execution_of_performAll? {moves : List Move} (sound : client.Sound)
    (busy : client.awaited ≠ none) (unfinished : .conclude ∉ moves)
    (run : client.performAll? moves = some next) : client.Execution next moves.length := by
  induction moves generalizing client with
  | nil =>
    cases run
    exact ⟨sound, busy, Nat.le_refl _, Nat.le_of_eq (Nat.zero_add _), id⟩
  | cons move moves ih =>
    simp only [Client.performAll?, List.foldlM_cons, Option.bind_eq_bind,
      Option.bind_eq_some_iff] at run
    obtain ⟨middle, moved, run⟩ := run
    obtain ⟨other, unfinished⟩ := not_or.1 (mt List.mem_cons.2 unfinished)
    have step := roomStep_of_perform? sound.listening moved
    obtain ⟨load, nearer⟩ := step.load_le busy (Ne.symm other)
    have rest := ih (step.sound sound) (step.busy busy (Ne.symm other)) unfinished run
    have nearer' := rest.nearer
    refine { rest with load_le := Nat.le_trans rest.load_le load, nearer := ?_, ended := ?_ }
    · rw [List.length_cons]
      omega
    · intro ended
      exact rest.ended (step.ended ended (Ne.symm other))

/-- A flow that finds the channel full waits for a tick, and the tick waits for the flow. -/
theorem Stuck.perform? (stuck : client.Stuck) (h : client.perform? move = some next) :
    next.Stuck := by
  obtain ⟨stage, event, waits, sends, listening, full⟩ := stuck
  have unfinished := Stage.not_isOver_of_event? sends
  have step := roomStep_of_perform? listening h
  cases step with
  | turns idle outbox =>
    rcases idle with idle | rfl
    · cases waits.symm.trans idle
    · cases Client.perform?_eq_some.1 h with
      | conclude finished =>
        rw [waits, Option.some.injEq, Option.some.injEq] at finished
        exact absurd (finished.imp (·.1) id) unfinished
  | goes flow stage' stage'' outbox log stands goes same =>
    subst same
    cases flow with
    | none =>
      obtain rfl := Option.some.inj (waits.symm.trans stands)
      refine absurd (goes.sends ?_) full
      rw [sends]
      exact Option.some_ne_none _
    | some i =>
      refine ⟨stage, event, waits, sends, goes.listening.trans listening, ?_⟩
      have grown := goes.grown
      simp only [Channel.HasRoom, follow, goes.capacity] at full ⊢
      omega
  | receives ready event rest queued same =>
    rw [waits] at ready
    rcases ready with idle | ended
    · cases idle
    · exact absurd (.inl (Option.some.inj ended)) unfinished
  | settles i stage stands outbox tasks awaited =>
    refine ⟨_, event, awaited.trans waits, sends, ?_, ?_⟩
    · rw [outbox]
      exact listening
    · rw [outbox]
      exact full

theorem Stuck.performAll? {moves : List Move} (stuck : client.Stuck)
    (run : client.performAll? moves = some next) : next.Stuck :=
  performAll?_keeps Stuck (fun _ _ => Stuck.perform?) stuck run

theorem hasRoom_of_load (sound : client.Sound) (fits : client.load ≤ 100)
    (waits : client.awaited = some stage) (sends : stage.event? ≠ none) :
    client.kernel.outbox.channel.HasRoom := by
  obtain ⟨event, own⟩ := Option.ne_none_iff_exists'.1 sends
  have owed := Stage.owes_of_event? own
  rw [sound.hasRoom_iff]
  simp only [load, total, waits, Option.elim_some] at fits
  omega

theorem goes_on_of_hasRoom (sound : client.Sound) (waits : client.awaited = some stage)
    (room : stage.event? ≠ none → client.kernel.outbox.channel.HasRoom) :
    stage.IsAsking ∨
      ∃ move ∈ [Move.advance none, .receive, .conclude], (client.perform? move).isSome := by
  by_cases asks : stage.IsAsking
  · exact .inl asks
  refine .inr ?_
  by_cases ended : stage = .ended
  · subst ended
    rcases queued : client.kernel.outbox.channel.queue with _ | ⟨event, rest⟩
    · have concludes := perform?_eq_some.2 (.conclude (.inl ⟨waits, queued⟩))
      exact ⟨.conclude, by simp, Option.isSome_of_eq_some concludes⟩
    · have receives := perform?_eq_some.2 (.receive event rest (.inr waits) queued)
      exact ⟨.receive, by simp, Option.isSome_of_eq_some receives⟩
  by_cases crashed : stage = .crashed
  · subst crashed
    have concludes := perform?_eq_some.2 (.conclude (.inr waits))
    exact ⟨.conclude, by simp, Option.isSome_of_eq_some concludes⟩
  · obtain ⟨stage', outbox', moved⟩ :=
      Stage.exists_advance? sound.listening (not_or.2 ⟨ended, crashed⟩) asks room
    have advances := perform?_eq_some.2 (.advance none waits moved)
    exact ⟨.advance none, by simp, Option.isSome_of_eq_some advances⟩

theorem exists_keeps (sound : client.Sound) {flow : Option Nat}
    (stands : client.stage? flow = some stage) (active : 0 < stage.owes)
    (room : stage.event? ≠ none → client.kernel.outbox.channel.HasRoom) :
    ∃ (move : Move) (stage' : Stage) (outbox : Outbox) (log : List Happening), move ≠ .conclude ∧
      client.perform? move = some (client.follow flow stage' outbox log) ∧
      stage'.rank < stage.rank ∧ stage.Keeps client.kernel.outbox stage' outbox := by
  have listening := sound.listening
  by_cases asks : stage.IsAsking
  · cases stage with
    | awaiting mutation =>
      exact ⟨.answer flow (.ok ()), _, client.kernel.outbox, client.log, by simp,
        perform?_eq_some.2 (.answer flow _ stands), Stage.rank_answered_lt mutation (.ok ()),
        Stage.keeps_of_does listening (.answer mutation (.ok ())) rfl rfl⟩
    | awaitingList token =>
      exact ⟨.answerList flow (.ok []), _, client.kernel.outbox, client.log, by simp,
        perform?_eq_some.2 (.answerList flow _ stands), Stage.rank_listed_lt token (.ok []),
        Stage.keeps_of_does listening (.list token (.ok [])) rfl ⟨[], rfl⟩⟩
    | _ => cases asks
  · have unfinished : ¬ stage.IsOver := by
      rintro (rfl | rfl) <;> cases active
    obtain ⟨stage', outbox, moved⟩ := Stage.exists_advance? listening unfinished asks room
    obtain ⟨deed, own, does, shares, -⟩ := Stage.does_of_advance? moved
    have succeeds : deed.Succeeds := by
      cases does with
      | answer | list => cases own
      | _ => trivial
    exact ⟨.advance flow, stage', outbox, client.log ++ (stage.call?.map .call).toList, by simp,
      perform?_eq_some.2 (.advance flow stands moved), Stage.rank_lt_of_advance? moved,
      Stage.keeps_of_does listening does shares succeeds⟩

/-- If the channel has no room for all that may be sent, some interleaving gets stuck. -/
theorem exists_stuck (sound : client.Sound) (waits : client.awaited = some stage)
    (active : 0 < stage.owes) (exceeds : 100 < client.load) :
    ∃ moves last, .conclude ∉ moves ∧ client.performAll? moves = some last ∧ last.Stuck := by
  -- All flows go on, but the executed one keeps its last event until the channel is full.
  induction left : client.total Stage.rank using Nat.strongRecOn generalizing client stage with
  | ind n ih =>
    subst left
    have further (flow : Option Nat) {other : Stage} (stands : client.stage? flow = some other)
        (active : 0 < other.owes)
        (room : other.event? ≠ none → client.kernel.outbox.channel.HasRoom)
        (leaves : ∀ stage' outbox log, other.Keeps client.kernel.outbox stage' outbox →
          ∃ awaited, (client.follow flow stage' outbox log).awaited = some awaited ∧
            0 < awaited.owes) :
        ∃ moves last, .conclude ∉ moves ∧ client.performAll? moves = some last ∧ last.Stuck := by
      obtain ⟨move, stage', outbox, log, own, moved, lower, keeps⟩ :=
        exists_keeps sound stands active room
      obtain ⟨awaited, waits', active'⟩ := leaves stage' outbox log keeps
      have owed := total_follow stands Stage.owes stage' outbox log
      have ranks := total_follow stands Stage.rank stage' outbox log
      have queue : (client.follow flow stage' outbox log).kernel.outbox = outbox := rfl
      have kept := keeps.load
      have exceeds' : 100 < (client.follow flow stage' outbox log).load := by
        simp only [load, queue] at exceeds ⊢
        omega
      have sound' := (roomStep_of_perform? sound.listening moved).sound sound
      obtain ⟨moves, last, unfinished, run, stuck⟩ :=
        ih _ (by omega) sound' waits' active' exceeds' rfl
      refine ⟨move :: moves, last, ?_, ?_, stuck⟩
      · simp [own.symm, unfinished]
      · rw [performAll?, List.foldlM_cons, moved]
        exact run
    by_cases room : client.kernel.outbox.channel.HasRoom
    · by_cases more : 1 < stage.owes
      · refine further none waits active (fun _ => room) fun stage' _ _ keeps => ?_
        have drop := keeps.drop
        exact ⟨stage', rfl, by omega⟩
      · have short := sound.hasRoom_iff.1 room
        have others : 0 < Stage.total Stage.owes client.kernel.tasks := by
          simp only [load, total, waits, Option.elim_some] at exceeds
          omega
        obtain ⟨i, other, stands, active'⟩ := Stage.exists_of_total_pos others
        exact further (some i) stands active' (fun _ => room) fun _ _ _ _ =>
          ⟨stage, waits, active⟩
    · by_cases silent : stage.event? = none
      · refine further none waits active (absurd silent) fun stage' _ _ keeps => ?_
        exact ⟨stage', rfl, (keeps.still silent).symm ▸ active⟩
      · obtain ⟨event, own⟩ := Option.ne_none_iff_exists'.1 silent
        exact ⟨[], client, by simp, rfl, stage, event, waits, own, sound.listening, room⟩

end Step

theorem begin_eq (client : Client) (command : Command) :
    (client.begin command).kernel =
        { client.kernel with state := (client.kernel.state.accept command).1 } ∧
      (client.begin command).awaited =
        some ((client.kernel.state.accept command).2.elim .ended .ofFlow) :=
  ⟨rfl, rfl⟩

theorem sound_initial (state : State) : ({ kernel := { state } } : Client).Sound :=
  ⟨rfl, rfl, Nat.zero_le _⟩

theorem performAll?_execute {client : Client} (free : client.awaited = none) (command : Command)
    (moves : List Move) :
    client.performAll? (.execute command :: moves) = (client.begin command).performAll? moves := by
  rw [performAll?, List.foldlM_cons, perform?, if_pos free]
  rfl

theorem stuck_of_full {kernel : Kernel} (log : List Happening)
    (listening : kernel.outbox.channel.isOpen) (full : ¬ kernel.outbox.channel.HasRoom) :
    ∃ last, ({ kernel, log } : Client).performAll? [.execute .refresh, .advance none] = some last ∧
      last.Stuck :=
  ⟨_, rfl, _, _, rfl, rfl, listening, full⟩

end Client

namespace Kernel

variable {σ : Type} {api : Api (StateM σ)} {server : σ} {kernel : Kernel} {command : Command}
  {flow : Flow}

/-- Alone with the server that answers all calls, an executed command comes back if the channel has
room for all the events that its flow sends, and only then. -/
theorem execute_isSome_iff (listening : kernel.outbox.channel.isOpen)
    (held : kernel.outbox.Holds []) (accepted : (kernel.state.accept command).2 = some flow)
    (answered : (flow.ask api server).1.IsWhole) :
    (kernel.execute api command server).1.2.isSome ↔
      kernel.outbox.Holds ((flow.ask api server).1.events (kernel.outbox.issued + 1)) := by
  have accepts : kernel.state.accept command = ((kernel.state.accept command).1, some flow) :=
    Prod.ext rfl accepted
  obtain ⟨fits, full⟩ := Stage.run_ofFlow api listening held flow server
  by_cases room : kernel.outbox.Holds ((flow.ask api server).1.events (kernel.outbox.issued + 1))
  · rw [execute_of_run accepts (fits room), if_pos (Course.stage_eq_ended_iff.2 answered)]
    exact iff_of_true rfl room
  · rcases ran : (Stage.ofFlow flow).run api kernel.outbox server with ⟨⟨stage, outbox⟩, server'⟩
    have waits : ¬ stage.IsOver := by
      have exceeds := full room
      rwa [ran] at exceeds
    rw [execute_of_run accepts ran, if_neg fun ended => waits (.inl ended)]
    exact iff_of_false Bool.false_ne_true room

end Kernel

/-- An executed command waits for nothing but answers, and is over after so many steps, unless its
flow gets stuck in front of the full channel; then it is stuck for good. Some interleaving gets it
stuck exactly if the channel has no room for all that is queued and that flows may still send. -/
theorem gets_stuck_iff_load {state : State} {moves : List Move} {client : Client}
    (run : Client.performAll? { kernel := { state } } moves = some client)
    (free : client.awaited = none) (command : Command) :
    ((∃ more last, .conclude ∉ more ∧
        client.performAll? (.execute command :: more) = some last ∧ last.Stuck) ↔
      (client.kernel.state.accept command).2 ≠ none ∧ 100 < (client.begin command).load) ∧
    (∀ more last, .conclude ∉ more →
      client.performAll? (.execute command :: more) = some last →
        more.length ≤ (client.begin command).stepsLeft ∧
        (last.Stuck → ∀ later next, last.performAll? later = some next → next.Stuck) ∧
        (¬ last.Stuck → ∃ stage, last.awaited = some stage ∧ (stage.IsAsking ∨
          ∃ move ∈ [Move.advance none, .receive, .conclude], (last.perform? move).isSome))) ∧
    (∀ (σ : Type) (api : Api (StateM σ)) (server : σ) (flow : Flow),
      (client.kernel.state.accept command).2 = some flow → (flow.ask api server).1.IsWhole →
        ((client.kernel.execute api command server).1.2.isSome ↔
          client.kernel.outbox.channel.queue.length +
            ((flow.ask api server).1.events (client.kernel.outbox.issued + 1)).length ≤ 100)) := by
  have sound := (Client.sound_initial state).performAll? run
  have begun : (client.begin command).Sound := ⟨sound.listening, sound.capacity, sound.held⟩
  obtain ⟨-, waits⟩ := client.begin_eq command
  have busy : (client.begin command).awaited ≠ none := by
    rw [waits]
    exact Option.some_ne_none _
  refine ⟨⟨?_, ?_⟩, ?_, ?_⟩
  · rintro ⟨more, last, unfinished, run, stage, event, stands, sends, -, full⟩
    rw [Client.performAll?_execute free] at run
    have execution := Client.execution_of_performAll? begun busy unfinished run
    constructor
    · intro none
      rw [none] at waits
      obtain rfl := Option.some.inj (stands.symm.trans (execution.ended waits))
      cases sends
    · rcases Nat.lt_or_ge 100 (client.begin command).load with exceeds | small
      · exact exceeds
      · have fits : last.load ≤ 100 := Nat.le_trans execution.load_le small
        refine absurd (Client.hasRoom_of_load execution.sound fits stands ?_) full
        rw [sends]
        exact Option.some_ne_none _
  · rintro ⟨starts, exceeds⟩
    obtain ⟨flow, accepted⟩ := Option.ne_none_iff_exists'.1 starts
    rw [accepted] at waits
    obtain ⟨more, last, unfinished, run, stuck⟩ :=
      Client.exists_stuck begun waits (Stage.owes_ofFlow_pos flow) exceeds
    refine ⟨more, last, unfinished, ?_, stuck⟩
    rw [Client.performAll?_execute free]
    exact run
  · intro more last unfinished run
    rw [Client.performAll?_execute free] at run
    have execution := Client.execution_of_performAll? begun busy unfinished run
    have bound := execution.nearer
    refine ⟨by omega, fun stuck later next => stuck.performAll?, fun unstuck => ?_⟩
    obtain ⟨stage, stands⟩ := Option.ne_none_iff_exists'.1 execution.busy
    refine ⟨stage, stands, Client.goes_on_of_hasRoom execution.sound stands fun sends => ?_⟩
    by_cases room : last.kernel.outbox.channel.HasRoom
    · exact room
    · obtain ⟨event, own⟩ := Option.ne_none_iff_exists'.1 sends
      exact absurd ⟨stage, event, stands, own, execution.sound.listening, room⟩ unstuck
  · intro σ api server flow accepted answered
    rw [Kernel.execute_isSome_iff sound.listening sound.held accepted answered, Outbox.Holds,
      sound.capacity]

theorem gets_stuck_iff_load_of_two :
    let moves := [.dispatch .refresh, .advance (some 0), .advance (some 0)]
    ∃ client, Client.performAll? { kernel := { state := {} } } moves = some client ∧
      client.awaited = none ∧ (client.begin .refresh).load = 4 ∧
      ¬ ∃ more last, .conclude ∉ more ∧
        client.performAll? (.execute .refresh :: more) = some last ∧ last.Stuck := by
  intro moves
  obtain ⟨client, run, free, load⟩ : ∃ client,
      Client.performAll? { kernel := { state := {} } } moves = some client ∧
      client.awaited = none ∧ (client.begin .refresh).load = 4 := ⟨_, rfl, rfl, rfl⟩
  refine ⟨client, run, free, load, mt (gets_stuck_iff_load run free .refresh).1.1 fun h => ?_⟩
  have exceeds := h.2
  rw [load] at exceeds
  exact absurd exceeds (by decide)

def Api.accepting : Api (StateM Unit) where
  list := pure (.ok [])
  mutate _ := pure (.ok ())

namespace Kernel

/-- Dispatches refreshes, each when the last is over, and never ticks. -/
def refreshed : Nat → Kernel
  | 0 => {}
  | n + 1 => (((refreshed n).dispatch .refresh).runTasks Api.accepting ()).1

theorem refreshed_queue (n : Nat) (fits : 2 * n ≤ 100) :
    (refreshed n).tasks = [] ∧ (refreshed n).outbox.channel.isOpen ∧
      (refreshed n).outbox.channel.capacity = 100 ∧
      (refreshed n).outbox.channel.queue.length = 2 * n := by
  induction n with
  | zero => exact ⟨rfl, rfl, rfl, rfl⟩
  | succ n ih =>
    obtain ⟨resting, listening, capacity, length⟩ := ih (by omega)
    let kernel := (refreshed n).dispatch .refresh
    have alone : kernel.tasks = [.ofFlow .refresh] := by
      simp [kernel, Kernel.dispatch, State.accept, Kernel.spawn, resting]
    have held : (refreshed n).outbox.Holds [] := by
      simp only [Outbox.Holds, capacity, length, List.length_nil]
      omega
    have room : (refreshed n).outbox.Holds
        ((Flow.ask Api.accepting .refresh ()).1.events ((refreshed n).outbox.issued + 1)) := by
      simp only [Outbox.Holds, capacity, length]
      exact fits
    have ran : (Stage.ofFlow .refresh).run Api.accepting kernel.outbox () = _ :=
      (Stage.run_ofFlow Api.accepting listening held .refresh ()).1 room
    have last := runTasks_of_run alone ran
    rw [if_pos (Course.isOver_stage _)] at last
    have same : refreshed (n + 1) = (kernel.runTasks Api.accepting ()).1 := rfl
    rw [same, last]
    refine ⟨rfl, listening, capacity, ?_⟩
    simp only [Course.leaves, Outbox.push, List.length_append, length]
    rfl

theorem leadsTo_refreshed (n : Nat) :
    ∃ log, ({} : Client).LeadsTo { kernel := refreshed n, log } := by
  induction n with
  | zero => exact ⟨[], .refl _⟩
  | succ n ih =>
    obtain ⟨log, runs⟩ := ih
    let happened := log ++ [.command (refreshed n).state .refresh]
    obtain ⟨log', rest⟩ := Client.leadsTo_runTasks Api.accepting
      ((refreshed n).dispatch .refresh) () happened
    exact ⟨log', runs.trans (.step (.dispatch .refresh) rfl rest)⟩

end Kernel

/-- Behind fifty refreshes that nobody ticked away, the next one that is executed never comes back,
although the server answers every call. -/
theorem refresh_behind_fifty_is_stuck :
    (∃ log, ({} : Client).LeadsTo { kernel := Kernel.refreshed 50, log }) ∧
    (Kernel.refreshed 50).tasks = [] ∧
    (Flow.ask Api.accepting .refresh ()).1.IsWhole ∧
    ((Kernel.refreshed 50).execute Api.accepting .refresh ()).1.2 = none ∧
    ∀ log, ∃ last : Client,
      ({ kernel := Kernel.refreshed 50, log } : Client).performAll?
        [.execute .refresh, .advance none] = some last ∧
      ∀ later next, last.performAll? later = some next → next.Stuck := by
  obtain ⟨resting, listening, capacity, length⟩ := Kernel.refreshed_queue 50 (by decide)
  have held : (Kernel.refreshed 50).outbox.Holds [] := by
    simp [Outbox.Holds, capacity, length]
  have full : ¬ (Kernel.refreshed 50).outbox.Holds
      ((Flow.ask Api.accepting .refresh ()).1.events
        ((Kernel.refreshed 50).outbox.issued + 1)) := by
    simp only [Outbox.Holds, capacity, length]
    decide
  have answered : (Flow.ask Api.accepting .refresh ()).1.IsWhole := by decide
  have accepted : ((Kernel.refreshed 50).state.accept .refresh).2 = some .refresh := rfl
  have lost := mt (Kernel.execute_isSome_iff listening held accepted answered).1 full
  have places : ¬ (Kernel.refreshed 50).outbox.channel.HasRoom := by
    simp [Channel.HasRoom, capacity, length]
  refine ⟨Kernel.leadsTo_refreshed 50, resting, answered, by simpa using lost, fun log => ?_⟩
  obtain ⟨last, run, stuck⟩ := Client.stuck_of_full log listening places
  exact ⟨last, run, fun later next => stuck.performAll?⟩

end ProjectClient

import ProjectClient.Proofs.Kernel.Plain

/-! A kernel and the one without tokens, side by side. Every queued event will count when its turn
comes, and no refresh that was opened by then has a token above those handed out. -/
namespace ProjectClient.Kernel

/-- No flow is running, and tokens apart both kernels stand alike. -/
structure Mirrors (kernel : Kernel) (plain : Plain) : Prop where
  listening : kernel.outbox.channel.isOpen
  capacity : kernel.outbox.channel.capacity = 100
  held : plain.queue.length ≤ 100
  resting : kernel.tasks = []
  page : kernel.state.page = plain.page
  queue : kernel.outbox.channel.queue.map Event.report? = plain.queue.map some
  heeds : kernel.state.HeedsAll kernel.outbox.channel.queue
  opened : (kernel.state.applyAll kernel.outbox.channel.queue).Opened kernel.outbox.issued

theorem mirrors_initial : ({} : Kernel).Mirrors {} where
  listening := rfl
  capacity := rfl
  held := Nat.zero_le _
  resting := rfl
  page := rfl
  queue := rfl
  heeds := trivial
  opened _ h := by cases h

namespace Mirrors

variable {kernel : Kernel} {plain : Plain}

theorem length_queue (mirrors : kernel.Mirrors plain) :
    kernel.outbox.channel.queue.length = plain.queue.length := by
  simpa using congrArg List.length mirrors.queue

theorem outbox_holds_nil (mirrors : kernel.Mirrors plain) : kernel.outbox.Holds [] := by
  rw [Outbox.Holds, mirrors.length_queue, mirrors.capacity]
  exact mirrors.held

theorem tick (mirrors : kernel.Mirrors plain) :
    kernel.tick.2 = plain.tick.2 ∧ kernel.tick.1.Mirrors plain.tick.1 := by
  obtain ⟨trail, page⟩ := State.applyTrail_of_heedsAll mirrors.queue mirrors.heeds
  rw [mirrors.page] at page
  have last : kernel.tick.1.state = kernel.state.applyAll kernel.outbox.channel.queue :=
    congrArg Prod.fst trail
  refine ⟨congrArg Prod.snd trail, ?_⟩
  constructor
  · exact mirrors.listening
  · exact mirrors.capacity
  · exact Nat.zero_le _
  · exact mirrors.resting
  · exact (congrArg State.page last).trans page
  · rfl
  · trivial
  · rw [last]
    exact mirrors.opened

theorem turn (mirrors : kernel.Mirrors plain) (state : State)
    (latest : state.latestRefresh = kernel.state.latestRefresh) :
    { kernel with state }.Mirrors { plain with page := state.page } := by
  obtain ⟨heeds, last⟩ := State.heedsAll_congr latest kernel.outbox.channel.queue
  refine { mirrors with page := rfl, heeds := heeds.2 mirrors.heeds, opened := ?_ }
  intro newest h
  exact mirrors.opened newest (last.symm.trans h)

theorem accept (mirrors : kernel.Mirrors plain) (command : Command) :
    { kernel with state := (kernel.state.accept command).1 }.Mirrors (plain.accept command).1 ∧
      (kernel.state.accept command).2 = (plain.accept command).2 := by
  obtain ⟨page, flow⟩ := kernel.state.accept_page command
  rw [mirrors.page] at page flow
  have turned := mirrors.turn _ (kernel.state.latestRefresh_accept command)
  rw [← page] at turned
  exact ⟨turned, flow.symm⟩

theorem edit (mirrors : kernel.Mirrors plain) (edit : String → String) :
    (kernel.editDraft edit).Mirrors
      { plain with page.createDraft := edit plain.page.createDraft } := by
  have turned := mirrors.turn (kernel.state.editDraft edit) rfl
  rw [← mirrors.page]
  exact turned

theorem outbox_holds_iff (mirrors : kernel.Mirrors plain) (course : Course) (token : Token) :
    kernel.outbox.Holds (course.events token) ↔
      plain.queue.length + course.reports.length ≤ 100 := by
  rw [Outbox.Holds, mirrors.length_queue, mirrors.capacity, course.length_events]

/-- A flow that ran alone leaves events that will all count. -/
theorem leaves (mirrors : kernel.Mirrors plain) {course : Course}
    (fits : plain.queue.length + course.reports.length ≤ 100) :
    { kernel with outbox := course.leaves kernel.outbox }.Mirrors
      { plain with queue := plain.queue ++ course.reports } := by
  obtain ⟨heeds, opened⟩ := mirrors.opened.course course
  refine { mirrors with held := ?_, queue := ?_, heeds := ?_, opened := ?_ }
  · rw [List.length_append]
    exact fits
  · rw [Course.leaves, Outbox.push, List.map_append, List.map_append, mirrors.queue,
      course.map_report?_events]
  · exact State.heedsAll_append.2 ⟨mirrors.heeds, heeds⟩
  · have split := kernel.state.applyAll_append kernel.outbox.channel.queue
      (course.events (kernel.outbox.issued + 1))
    rw [← split] at opened
    exact opened

end Mirrors

/-! ## Flows -/

section Running

variable {σ : Type} {api : Api (StateM σ)} {command : Command} {flow : Flow} {server server' : σ}

theorem execute_of_run {kernel : Kernel} {state : State} {stage : Stage} {outbox : Outbox}
    (accepted : kernel.state.accept command = (state, some flow))
    (ran : (Stage.ofFlow flow).run api kernel.outbox server = ((stage, outbox), server')) :
    kernel.execute api command server =
      (if stage = .ended then
        ({ kernel with state, outbox }.tick.1, some { kernel with state, outbox }.tick.2)
      else ({ kernel with state, outbox }, none), server') := by
  rw [execute, accepted]
  simp only [bind, StateT.bind, ran]
  split <;> rfl

/-- All that can come of a command: it is done at once, or its flow comes to its end, or its flow
does not and nothing is taken out of the channel. -/
inductive Executes (api : Api (StateM σ)) (command : Command) (kernel : Kernel) (server : σ) :
    (Kernel × Option (List Status)) × σ → Prop
  | atOnce {state : State} (accepted : kernel.state.accept command = (state, none)) :
    Executes api command kernel server
      (({ kernel with state }.tick.1, some { kernel with state }.tick.2), server)
  | whole {state : State} {flow : Flow} {outbox : Outbox} {server' : σ}
    (accepted : kernel.state.accept command = (state, some flow))
    (ran : (Stage.ofFlow flow).run api kernel.outbox server = ((.ended, outbox), server')) :
    Executes api command kernel server
      (({ kernel with state, outbox }.tick.1, some { kernel with state, outbox }.tick.2), server')
  | unfinished {state : State} {flow : Flow} {stage : Stage} {outbox : Outbox} {server' : σ}
    (accepted : kernel.state.accept command = (state, some flow))
    (ran : (Stage.ofFlow flow).run api kernel.outbox server = ((stage, outbox), server')) :
    Executes api command kernel server (({ kernel with state, outbox }, none), server')

theorem executes (api : Api (StateM σ)) (command : Command) (kernel : Kernel) (server : σ) :
    Executes api command kernel server (kernel.execute api command server) := by
  rcases accepted : kernel.state.accept command with ⟨state, none | flow⟩
  · rw [execute, accepted]
    exact .atOnce accepted
  · rcases ran : (Stage.ofFlow flow).run api kernel.outbox server with ⟨⟨stage, outbox⟩, server'⟩
    rw [execute_of_run accepted ran]
    split
    · rename_i ended
      exact .whole accepted (ended ▸ ran)
    · exact .unfinished accepted ran

theorem settle?_append_cons (kernel : Kernel) (stage : Stage) (stages : List Stage) :
    { kernel with tasks := kernel.tasks ++ stage :: stages }.settle? kernel.tasks.length =
      if stage.IsOver then
        some { kernel with tasks := kernel.tasks ++ stages, inFlight := kernel.inFlight - 1 }
      else none := by
  simp [settle?, List.eraseIdx_append_of_length_le]

theorem go_cons {kernel : Kernel} {stage stage' : Stage} {outbox : Outbox}
    (ran : stage.run api kernel.outbox server = ((stage', outbox), server'))
    (stages : List Stage) :
    runTasks.go api (stage :: stages) kernel server =
      runTasks.go api stages
        (if stage'.IsOver then { kernel with outbox, inFlight := kernel.inFlight - 1 }
        else { kernel with outbox, tasks := kernel.tasks ++ [stage'] }) server' := by
  have settles := settle?_append_cons { kernel with outbox } stage' []
  have last : (kernel.tasks ++ [stage']).length - 1 = kernel.tasks.length := by simp
  simp only [runTasks.go, bind, StateT.bind, ran, last, settles]
  split <;> simp

theorem runTasks_of_run {kernel : Kernel} {stage stage' : Stage} {outbox : Outbox}
    (alone : kernel.tasks = [stage])
    (ran : stage.run api kernel.outbox server = ((stage', outbox), server')) :
    kernel.runTasks api server =
      (if stage'.IsOver then
        { kernel with outbox, tasks := [], inFlight := kernel.inFlight - 1 }
      else { kernel with outbox, tasks := [stage'] }, server') := by
  have ran' : stage.run api { kernel with tasks := [] }.outbox server =
      ((stage', outbox), server') := ran
  rw [runTasks, alone, go_cons ran']
  rfl

end Running

namespace Mirrors

variable {kernel : Kernel} {plain : Plain} {σ : Type}

theorem run (mirrors : kernel.Mirrors plain) (api : Api (StateM σ)) (flow : Flow) (server : σ) :
    (∃ plain', plain.take? (flow.ask api server).1 = some plain' ∧
      (Stage.ofFlow flow).run api kernel.outbox server =
        (((flow.ask api server).1.stage, (flow.ask api server).1.leaves kernel.outbox),
          (flow.ask api server).2) ∧
      { kernel with outbox := (flow.ask api server).1.leaves kernel.outbox }.Mirrors plain') ∨
    plain.take? (flow.ask api server).1 = none ∧
      ¬ ((Stage.ofFlow flow).run api kernel.outbox server).1.1.IsOver := by
  obtain ⟨fits, full⟩ :=
    Stage.run_ofFlow api mirrors.listening mirrors.outbox_holds_nil flow server
  rw [mirrors.outbox_holds_iff] at fits full
  by_cases room : plain.queue.length + (flow.ask api server).1.reports.length ≤ 100
  · exact .inl ⟨_, if_pos room, fits room, mirrors.leaves room⟩
  · exact .inr ⟨if_neg room, full room⟩

/-- Both kernels execute a command alike, or neither comes to the end. -/
theorem execute (mirrors : kernel.Mirrors plain) (api : Api (StateM σ)) (command : Command)
    (server : σ) :
    (kernel.execute api command server).1.2 = none ∧
      (plain.execute api command server).1.2 = none ∨
    ∃ kernel' plain' trail server',
      kernel.execute api command server = ((kernel', some trail), server') ∧
      plain.execute api command server = ((plain', some trail), server') ∧
      kernel'.Mirrors plain' := by
  obtain ⟨accepted, flow⟩ := mirrors.accept command
  rcases own : kernel.state.accept command with ⟨state, flow?⟩
  rcases other : plain.accept command with ⟨plain₁, _⟩
  rw [own, other] at accepted flow
  cases flow
  cases flow? with
  | none =>
    obtain ⟨trail, ticked⟩ := accepted.tick
    refine .inr ⟨_, _, plain₁.tick.2, server, ?_, ?_, ticked⟩
    · rw [Kernel.execute, own, ← trail]
      rfl
    · rw [Plain.execute, other]
      rfl
  | some flow =>
    have follows : plain.execute api command server =
        (plain₁.follow (flow.ask api server).1, (flow.ask api server).2) := by
      rw [Plain.execute, other]
      rfl
    rcases accepted.run api flow server with ⟨plain', take, ran, mirrors'⟩ | ⟨full, waits⟩
    -- Its reports fit, and then only a crashed call can keep both from the tick.
    · rw [execute_of_run own ran, follows, Plain.follow, take]
      dsimp only
      by_cases whole : (flow.ask api server).1.IsWhole
      · obtain ⟨trail, ticked⟩ := mirrors'.tick
        rw [if_pos (Course.stage_eq_ended_iff.2 whole), if_pos whole, trail]
        exact .inr ⟨_, _, _, _, rfl, rfl, ticked⟩
      · rw [if_neg (mt Course.stage_eq_ended_iff.1 whole), if_neg whole]
        exact .inl ⟨rfl, rfl⟩
    · rcases ran : (Stage.ofFlow flow).run api kernel.outbox server with ⟨⟨stage, outbox⟩, server'⟩
      have unfinished : stage ≠ .ended := by
        rintro rfl
        rw [ran] at waits
        exact waits (.inl rfl)
      rw [execute_of_run own ran, follows, Plain.follow, full, if_neg unfinished]
      exact .inl ⟨rfl, rfl⟩

theorem dispatch (mirrors : kernel.Mirrors plain) (api : Api (StateM σ)) (command : Command)
    (server : σ) :
    ((kernel.dispatch command).runTasks api server).1.tasks ≠ [] ∧
      (plain.dispatch api command server).1 = none ∨
    ∃ kernel' plain' server',
      (kernel.dispatch command).runTasks api server = (kernel', server') ∧
      plain.dispatch api command server = (some plain', server') ∧
      kernel'.Mirrors plain' := by
  obtain ⟨accepted, flow⟩ := mirrors.accept command
  rcases own : kernel.state.accept command with ⟨state, flow?⟩
  rcases other : plain.accept command with ⟨plain₁, _⟩
  rw [own, other] at accepted flow
  cases flow
  cases flow? with
  | none =>
    refine .inr ⟨_, plain₁, server, ?_, ?_, accepted⟩
    · rw [Kernel.dispatch, own, runTasks]
      simp only [Option.elim_none, mirrors.resting]
      rfl
    · rw [Plain.dispatch, other]
      rfl
  | some flow =>
    have started : kernel.dispatch command = { kernel with state }.spawn flow := by
      rw [Kernel.dispatch, own]
      rfl
    have alone : ({ kernel with state }.spawn flow).tasks = [.ofFlow flow] := by
      rw [spawn, mirrors.resting]
      rfl
    have follows : plain.dispatch api command server =
        (plain₁.take? (flow.ask api server).1, (flow.ask api server).2) := by
      rw [Plain.dispatch, other]
      rfl
    rw [started, follows]
    rcases accepted.run api flow server with ⟨plain', take, ran, mirrors'⟩ | ⟨full, waits⟩
    · rw [runTasks_of_run alone ran, take, if_pos (flow.ask api server).1.isOver_stage]
      exact .inr ⟨_, _, _, rfl, rfl, { mirrors' with resting := rfl }⟩
    · rcases ran : (Stage.ofFlow flow).run api kernel.outbox server with ⟨⟨stage, outbox⟩, server'⟩
      rw [ran] at waits
      rw [runTasks_of_run alone ran, full, if_neg waits]
      exact .inl ⟨List.cons_ne_nil _ _, rfl⟩

end Mirrors

end ProjectClient.Kernel

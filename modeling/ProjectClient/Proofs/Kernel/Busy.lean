import ProjectClient.Proofs.Kernel.Gate
import ProjectClient.Proofs.Kernel.Room

/-! Whether the client is busy. A roster gives each dispatched flow a number that stays its own and
keeps what was sent. The count of the kernel is that of the flows whose tasks are not over, and when
it has come down to zero, none of them sends anything again. -/
namespace ProjectClient

inductive Fate where
  | underway
  | finished
  | crashed
deriving DecidableEq

def Stage.fate : Stage → Fate
  | ended => .finished
  | crashed => .crashed
  | _ => .underway

theorem Stage.fate_ne_underway_iff {stage : Stage} : stage.fate ≠ .underway ↔ stage.IsOver := by
  cases stage <;> simp [fate, IsOver]

/-- A client and the record of its dispatched flows, which are numbered from 0 in their order. -/
structure Roster where
  client : Client := {}
  /-- The fate of each flow at its number. It is decided when the task of the flow is over. -/
  fates : List Fate := []
  /-- The numbers of the flows that the kernel's tasks run, in the order of the tasks. -/
  numbers : List Nat := []
  /-- All that was sent, oldest first, by the number of the flow. The flow of a command that is
  executed has none. -/
  sent : List (Option Nat × Event) := []
  taken : List Event := []

inductive Incident where
  | move (move : Move)
  /-- A command is dispatched while there is nothing to run flows on. -/
  | refuse (command : Command) (cause : String)
  /-- Whoever shares the state puts another in its place. -/
  | overwrite (state : State)
  /-- The execution of a command is given up in the middle. -/
  | abandon

namespace Roster

def record (roster : Roster) : Move → Roster
  | .dispatch command =>
    if (roster.client.kernel.state.accept command).2.isSome then
      { roster with
        fates := roster.fates ++ [.underway], numbers := roster.numbers ++ [roster.fates.length] }
    else roster
  | .advance flow =>
    let event? := (roster.client.stage? flow).bind Stage.event?
    let number? := flow.bind (roster.numbers[·]?)
    { roster with sent := roster.sent ++ event?.toList.map (number?, ·) }
  | .receive => { roster with taken := roster.taken ++ roster.client.queue.head?.toList }
  | .settle i =>
    match roster.client.kernel.tasks[i]?, roster.numbers[i]? with
    | some stage, some n =>
      { roster with fates := roster.fates.set n stage.fate, numbers := roster.numbers.eraseIdx i }
    | _, _ => roster
  | _ => roster

def perform? (roster : Roster) : Incident → Option Roster
  | .move move =>
    (roster.client.perform? move).map fun client => { roster.record move with client }
  | .refuse command cause =>
    if roster.client.awaited = none then
      some { roster with client.kernel := roster.client.kernel.refuse command cause }
    else none
  | .overwrite state => some { roster with client.kernel.state := state }
  | .abandon => some { roster with client.awaited := none }

def performAll? (roster : Roster) (incidents : List Incident) : Option Roster :=
  incidents.foldlM perform? roster

/-! ## Single steps -/

inductive Step (roster : Roster) (incident : Incident) (next : Roster) : Prop
  | rests (client : Client) (same : next = { roster with client })
      (count : client.kernel.inFlight = roster.client.kernel.inFlight)
      (tasks : client.kernel.tasks.length = roster.client.kernel.tasks.length)
      (channel : client.kernel.outbox.channel = roster.client.kernel.outbox.channel)
  | starts (client : Client) (command : Command) (dispatched : incident = .move (.dispatch command))
      (same : next = { roster with
        client, fates := roster.fates ++ [.underway]
        numbers := roster.numbers ++ [roster.fates.length] })
      (count : client.kernel.inFlight = roster.client.kernel.inFlight + 1)
      (tasks : client.kernel.tasks.length = roster.client.kernel.tasks.length + 1)
      (channel : client.kernel.outbox.channel = roster.client.kernel.outbox.channel)
  | moves (client : Client) (number? : Option Nat) (event? : Option Event)
      (same : next = { roster with
        client, sent := roster.sent ++ event?.toList.map (number?, ·) })
      (own : ∀ n ∈ number?, n ∈ roster.numbers)
      (count : client.kernel.inFlight = roster.client.kernel.inFlight)
      (tasks : client.kernel.tasks.length = roster.client.kernel.tasks.length)
      (listening : client.kernel.outbox.channel.isOpen)
      (queue : client.queue = roster.client.queue ++ event?.toList)
  | takes (client : Client) (event : Event)
      (same : next = { roster with client, taken := roster.taken ++ [event] })
      (count : client.kernel.inFlight = roster.client.kernel.inFlight)
      (tasks : client.kernel.tasks.length = roster.client.kernel.tasks.length)
      (listening : client.kernel.outbox.channel.isOpen)
      (queue : roster.client.queue = event :: client.queue)
  | settles (client : Client) (i n : Nat) (fate : Fate)
      (same : next = { roster with
        client, fates := roster.fates.set n fate, numbers := roster.numbers.eraseIdx i })
      (number : roster.numbers[i]? = some n) (decided : fate ≠ .underway)
      (count : client.kernel.inFlight = roster.client.kernel.inFlight - 1)
      (tasks : client.kernel.tasks.length = roster.client.kernel.tasks.length - 1)
      (channel : client.kernel.outbox.channel = roster.client.kernel.outbox.channel)

structure Accurate (roster : Roster) : Prop where
  listening : roster.client.kernel.outbox.channel.isOpen
  count : roster.client.kernel.inFlight = roster.numbers.length
  tasks : roster.client.kernel.tasks.length = roster.numbers.length
  unique : roster.numbers.Nodup
  underway : ∀ n, n ∈ roster.numbers ↔ roster.fates[n]? = some .underway
  all : roster.fates.count .underway = roster.numbers.length
  events : roster.sent.map (·.2) = roster.taken ++ roster.client.queue

variable {roster next : Roster} {incident : Incident}

theorem step_of_dispatch (command : Command) :
    roster.Step (.move (.dispatch command)) { roster.record (.dispatch command) with
      client.kernel := roster.client.kernel.dispatch command
      client.awaited := roster.client.awaited
      client.log := roster.client.log ++ [.command roster.client.kernel.state command] } := by
  rcases accepted : roster.client.kernel.state.accept command with ⟨state, flow?⟩
  have channel := congrArg Outbox.channel (Client.outbox_dispatch roster.client.kernel command)
  have dispatched : roster.client.kernel.dispatch command =
      flow?.elim { roster.client.kernel with state } { roster.client.kernel with state }.spawn := by
    rw [Kernel.dispatch, accepted]
  cases flow? with
  | none =>
    have quiet : roster.record (.dispatch command) = roster := by simp [record, accepted]
    rw [quiet]
    refine .rests _ rfl ?_ ?_ channel
    · rw [dispatched]
      rfl
    · rw [dispatched]
      rfl
  | some flow =>
    have noted : roster.record (.dispatch command) = { roster with
        fates := roster.fates ++ [.underway]
        numbers := roster.numbers ++ [roster.fates.length] } := by
      simp [record, accepted]
    rw [noted]
    refine .starts _ command rfl rfl ?_ ?_ channel
    · rw [dispatched]
      rfl
    · rw [dispatched]
      simp [Kernel.spawn]

theorem step_of_move (accurate : roster.Accurate) {move : Move} {client : Client}
    (h : roster.client.perform? move = some client) :
    roster.Step (.move move) { roster.record move with client } := by
  cases Client.perform?_eq_some.1 h with
  | dispatch command idle => exact step_of_dispatch command
  | execute | conclude | edit => exact .rests _ rfl rfl rfl rfl
  | receive event rest ready queued =>
    have first : roster.record .receive = { roster with taken := roster.taken ++ [event] } := by
      simp [record, Client.queue, queued]
    rw [first]
    exact .takes _ event rfl rfl rfl accurate.listening queued
  | @advance flow stage stage' outbox stands moved =>
    obtain ⟨listening, queue⟩ := Stage.queue_advance? accurate.listening moved
    have noted : roster.record (.advance flow) = { roster with
        sent := roster.sent ++ stage.event?.toList.map (flow.bind (roster.numbers[·]?), ·) } := by
      simp [record, stands]
    rw [noted]
    refine .moves _ _ stage.event? rfl (fun n named => ?_) ?_ ?_ listening queue
    · obtain ⟨i, -, named⟩ := Option.bind_eq_some_iff.1 named
      exact List.mem_of_getElem? named
    · cases flow <;> rfl
    · cases flow <;> simp [Client.follow, Client.place]
  | answer flow outcome stands | answerList flow outcome stands =>
    refine .rests _ rfl ?_ ?_ rfl
    · cases flow <;> rfl
    · cases flow <;> simp [Client.follow, Client.place]
  | @settle i stage stands finished =>
    have inside := (List.getElem?_eq_some_iff.1 stands).1
    obtain ⟨n, number⟩ : ∃ n, roster.numbers[i]? = some n :=
      ⟨_, List.getElem?_eq_getElem (accurate.tasks ▸ inside)⟩
    have noted : roster.record (.settle i) = { roster with
        fates := roster.fates.set n stage.fate, numbers := roster.numbers.eraseIdx i } := by
      simp [record, stands, number]
    rw [noted]
    refine .settles _ i n stage.fate rfl number (Stage.fate_ne_underway_iff.2 finished) rfl ?_ rfl
    exact List.length_eraseIdx_of_lt inside

theorem step_of_perform? (accurate : roster.Accurate) (h : roster.perform? incident = some next) :
    roster.Step incident next := by
  cases incident with
  | move move =>
    obtain ⟨client, moved, rfl⟩ := Option.map_eq_some_iff.1 h
    exact step_of_move accurate moved
  | refuse command cause =>
    obtain ⟨-, h⟩ := Option.ite_none_right_eq_some.1 h
    cases h
    exact .rests _ rfl rfl rfl rfl
  | overwrite | abandon =>
    cases h
    exact .rests _ rfl rfl rfl rfl

/-! ## The record is right -/

theorem accurate_initial (state : State) :
    ({ client := { kernel := { state } } } : Roster).Accurate where
  listening := rfl
  count := rfl
  tasks := rfl
  unique := .nil
  underway n := iff_of_false List.not_mem_nil (by simp)
  all := rfl
  events := rfl

theorem Accurate.step (accurate : roster.Accurate) (step : roster.Step incident next) :
    next.Accurate := by
  obtain ⟨listening, count', tasks', unique, underway, all, events⟩ := accurate
  have known : ∀ n ∈ roster.numbers, n < roster.fates.length := fun n among =>
    (List.getElem?_eq_some_iff.1 ((underway n).1 among)).1
  cases step with
  | rests client same count tasks channel =>
    subst same
    refine ⟨channel ▸ listening, count.trans count', tasks.trans tasks', unique, underway, all, ?_⟩
    rw [events, Client.queue, Client.queue, channel]
  | starts client command dispatched same count tasks channel =>
    subst same
    refine ⟨channel ▸ listening, ?_, ?_, ?_, ?_, ?_, ?_⟩
    · simp only [count, count', List.length_append, List.length_singleton]
    · simp only [tasks, tasks', List.length_append, List.length_singleton]
    · refine List.nodup_append.2 ⟨unique, List.pairwise_singleton _ _, fun n old m new => ?_⟩
      rw [List.mem_singleton.1 new]
      exact Nat.ne_of_lt (known n old)
    · intro n
      rw [List.mem_append, List.mem_singleton, underway]
      rcases Nat.lt_trichotomy n roster.fates.length with old | rfl | beyond
      · rw [List.getElem?_append_left old]
        exact or_iff_left (Nat.ne_of_lt old)
      · exact iff_of_true (.inr rfl) List.getElem?_concat_length
      · have outside : (roster.fates ++ [Fate.underway]).length ≤ n := by
          rw [List.length_append]
          exact beyond
        rw [List.getElem?_eq_none (Nat.le_of_lt beyond), List.getElem?_eq_none outside]
        simp [Nat.ne_of_gt beyond]
    · simp only [List.count_append, all, List.length_append]
      rfl
    · rw [events, Client.queue, Client.queue, channel]
  | moves client number? event? same own count tasks listening queue =>
    subst same
    refine ⟨listening, count.trans count', tasks.trans tasks', unique, underway, all, ?_⟩
    rw [List.map_append, events, queue, List.append_assoc]
    cases event? <;> rfl
  | takes client event same count tasks listening queue =>
    subst same
    refine ⟨listening, count.trans count', tasks.trans tasks', unique, underway, all, ?_⟩
    rw [events, queue, List.append_assoc]
    rfl
  | settles client i n fate same number decided count tasks channel =>
    subst same
    obtain ⟨inside, rfl⟩ := List.getElem?_eq_some_iff.1 number
    have others := List.nodup_cons.1 ((List.getElem_cons_eraseIdx_perm inside).nodup_iff.2 unique)
    have shorter : (roster.numbers.eraseIdx i).length = roster.numbers.length - 1 :=
      List.length_eraseIdx_of_lt inside
    have own := (underway _).1 (List.getElem_mem inside)
    obtain ⟨there, same⟩ := List.getElem?_eq_some_iff.1 own
    refine ⟨channel ▸ listening, ?_, ?_, others.2, fun m => ?_, ?_, ?_⟩
    · rw [count, count', shorter]
    · rw [tasks, tasks', shorter]
    · by_cases other : roster.numbers[i] = m
      · subst other
        rw [List.getElem?_set_self there]
        exact iff_of_false others.1 fun same => decided (Option.some.inj same)
      · rw [List.getElem?_set_ne other, ← underway,
          ← (List.getElem_cons_eraseIdx_perm inside).mem_iff, List.mem_cons]
        exact (or_iff_right (Ne.symm other)).symm
    · rw [List.count_set there, same, all, shorter]
      simp [decided]
    · rw [events, Client.queue, Client.queue, channel]

theorem Accurate.performAll? {incidents : List Incident} (accurate : roster.Accurate)
    (run : roster.performAll? incidents = some next) : next.Accurate :=
  foldlM_keeps Accurate (fun _ _ accurate h => accurate.step (step_of_perform? accurate h))
    accurate run

theorem Accurate.isBusy_iff (accurate : roster.Accurate) :
    roster.client.kernel.isBusy ↔ .underway ∈ roster.fates := by
  rw [← List.count_pos_iff, accurate.all, ← accurate.count]
  exact decide_eq_true_iff

theorem Accurate.idle (accurate : roster.Accurate) (idle : ¬ roster.client.kernel.isBusy) :
    roster.numbers = [] ∧ roster.client.kernel.tasks = [] := by
  have none : roster.client.kernel.inFlight = 0 := by simpa [Kernel.isBusy] using idle
  rw [accurate.count] at none
  exact ⟨List.eq_nil_of_length_eq_zero none,
    List.eq_nil_of_length_eq_zero (accurate.tasks.trans none)⟩

/-- The flows whose work is over leave the count, and nobody else has to do anything for it. -/
theorem Accurate.exists_settled (accurate : roster.Accurate) : ∃ settles last,
    (∀ incident ∈ settles, ∃ i, incident = .move (.settle i)) ∧
      roster.performAll? settles = some last ∧
      last.client.kernel.inFlight =
        roster.client.kernel.tasks.countP fun stage => ¬ stage.IsOver := by
  induction left : roster.client.kernel.tasks.length generalizing roster with
  | zero =>
    rw [List.length_eq_zero_iff] at left
    refine ⟨[], roster, nofun, rfl, ?_⟩
    rw [accurate.count, ← accurate.tasks, left]
    rfl
  | succ length ih =>
    by_cases working : ∀ stage ∈ roster.client.kernel.tasks, ¬ stage.IsOver
    · refine ⟨[], roster, nofun, rfl, ?_⟩
      rw [accurate.count, ← accurate.tasks, eq_comm, List.countP_eq_length]
      simpa using working
    · simp only [not_forall, not_not, exists_prop] at working
      obtain ⟨stage, among, finished⟩ := working
      obtain ⟨i, inside, rfl⟩ := List.getElem_of_mem among
      have stands := List.getElem?_eq_getElem inside
      have settled := Client.perform?_eq_some.2 (.settle i stands finished)
      have performed : roster.perform? (.move (.settle i)) = _ := congrArg (Option.map _) settled
      have next := accurate.step (step_of_perform? accurate performed)
      have shorter := List.length_eraseIdx_of_lt inside
      obtain ⟨settles, last, own, run, count⟩ := ih next (by simp only [shorter]; omega)
      refine ⟨.move (.settle i) :: settles, last, ?_, ?_, ?_⟩
      · exact List.forall_mem_cons.2 ⟨⟨i, rfl⟩, own⟩
      · rw [Roster.performAll?, List.foldlM_cons, performed]
        exact run
      · rw [count, ← (List.getElem_cons_eraseIdx_perm inside).countP_eq, List.countP_cons_of_neg]
        simpa using finished

/-! ## Once nobody is underway -/

structure Silent (since roster : Roster) : Prop where
  later : since.fates.length ≤ roster.fates.length
  others : ∀ n ∈ roster.numbers, since.fates.length ≤ n
  sent : ∃ new, roster.sent = since.sent ++ new ∧
    ∀ n event, (some n, event) ∈ new → since.fates.length ≤ n

variable {since : Roster}

theorem Silent.step (silent : since.Silent roster) (step : roster.Step incident next) :
    since.Silent next := by
  obtain ⟨later, others, sent⟩ := silent
  cases step with
  | rests client same | takes client event same =>
    subst same
    exact ⟨later, others, sent⟩
  | starts client command dispatched same =>
    subst same
    refine ⟨?_, fun n among => ?_, sent⟩
    · rw [List.length_append]
      exact Nat.le_add_right_of_le later
    · rcases List.mem_append.1 among with old | new
      · exact others n old
      · rw [List.mem_singleton.1 new]
        exact later
  | moves client number? event? same own =>
    subst same
    obtain ⟨new, same, foreign⟩ := sent
    refine ⟨later, others, new ++ event?.toList.map (number?, ·), ?_, fun n event among => ?_⟩
    · rw [same, List.append_assoc]
    · rcases List.mem_append.1 among with old | last
      · exact foreign n event old
      · obtain ⟨_, -, named⟩ := List.mem_map.1 last
        exact others n (own n (congrArg Prod.fst named))
  | settles client i n fate same =>
    subst same
    refine ⟨?_, fun m left => others m (List.mem_of_mem_eraseIdx left), sent⟩
    rw [List.length_set]
    exact later

theorem Accurate.silent {incidents : List Incident} (accurate : roster.Accurate)
    (none : roster.numbers = []) (run : roster.performAll? incidents = some next) :
    roster.Silent next := by
  have start : roster.Silent roster :=
    ⟨Nat.le_refl _, by rw [none]; nofun, [], (List.append_nil _).symm, nofun⟩
  refine (foldlM_keeps (fun other => other.Accurate ∧ roster.Silent other) ?_
    ⟨accurate, start⟩ run).2
  rintro other next incident - ⟨accurate, silent⟩ h
  have step := step_of_perform? accurate h
  exact ⟨accurate.step step, silent.step step⟩

theorem Accurate.stays_idle {incidents : List Incident} (accurate : roster.Accurate)
    (none : roster.numbers = []) (undispatched : ∀ command, .move (.dispatch command) ∉ incidents)
    (run : roster.performAll? incidents = some next) : next.numbers = [] := by
  refine (foldlM_keeps (fun other => other.Accurate ∧ other.numbers = []) ?_
    ⟨accurate, none⟩ run).2
  rintro other next incident among ⟨accurate, none⟩ h
  have step := step_of_perform? accurate h
  refine ⟨accurate.step step, ?_⟩
  cases step with
  | rests client same | moves client number? event? same | takes client event same =>
    subst same
    exact none
  | starts client command dispatched =>
    subst dispatched
    exact absurd among (undispatched command)
  | settles client i n fate same =>
    subst same
    exact congrArg (·.eraseIdx i) none

structure Quiet (since roster : Roster) : Prop where
  free : roster.client.awaited = none
  alone : roster.client.kernel.tasks = []
  sent : roster.sent = since.sent
  queue : roster.client.queue <:+ since.client.queue

theorem Quiet.stage?_eq_none (quiet : since.Quiet roster) (flow : Option Nat) :
    roster.client.stage? flow = none := by
  cases flow with
  | none => exact quiet.free
  | some i => simp [Client.stage?, quiet.alone]

theorem Quiet.perform? (quiet : since.Quiet roster)
    (undispatched : ∀ command, incident ≠ .move (.dispatch command))
    (unexecuted : ∀ command, incident ≠ .move (.execute command))
    (h : roster.perform? incident = some next) : since.Quiet next := by
  cases incident with
  | refuse command cause =>
    obtain ⟨-, h⟩ := Option.ite_none_right_eq_some.1 h
    cases h
    exact ⟨quiet.free, quiet.alone, quiet.sent, quiet.queue⟩
  | overwrite state =>
    cases h
    exact ⟨quiet.free, quiet.alone, quiet.sent, quiet.queue⟩
  | abandon =>
    cases h
    exact ⟨rfl, quiet.alone, quiet.sent, quiet.queue⟩
  | move move =>
    obtain ⟨client, moved, rfl⟩ := Option.map_eq_some_iff.1 h
    cases Client.perform?_eq_some.1 moved with
    | dispatch command => exact absurd rfl (undispatched command)
    | execute command => exact absurd rfl (unexecuted command)
    | receive event rest ready queued =>
      refine ⟨quiet.free, quiet.alone, quiet.sent, .trans ?_ quiet.queue⟩
      rw [Client.queue, Client.queue, queued]
      exact List.suffix_cons event rest
    | conclude => exact ⟨rfl, quiet.alone, quiet.sent, quiet.queue⟩
    | edit => exact ⟨quiet.free, quiet.alone, quiet.sent, quiet.queue⟩
    | advance flow stands | answer flow outcome stands | answerList flow outcome stands =>
      cases (quiet.stage?_eq_none flow).symm.trans stands
    | settle i stands =>
      rw [quiet.alone] at stands
      cases stands

theorem performAll?_tick (free : roster.client.awaited = none) :
    roster.performAll? (List.replicate roster.client.queue.length (.move .receive)) =
      some { roster with
        client.kernel := roster.client.kernel.tick.1
        taken := roster.taken ++ roster.client.queue } := by
  rw [Client.tick_fst, Client.queue]
  generalize queued : roster.client.kernel.outbox.channel.queue = queue
  induction queue generalizing roster with
  | nil =>
    obtain ⟨⟨⟨state, ⟨⟨capacity, _, isOpen⟩, issued⟩, tasks, inFlight⟩, awaited, log⟩, fates,
      numbers, sent, taken⟩ := roster
    cases queued
    rw [List.append_nil]
    rfl
  | cons event queue ih =>
    let next : Roster := { roster with
      client.kernel.state := roster.client.kernel.state.apply event
      client.kernel.outbox.channel.queue := queue
      taken := roster.taken ++ [event] }
    have received : roster.perform? (.move .receive) = some next := by
      have moved := Client.perform?_eq_some.2 (.receive event queue (.inl free) queued)
      rw [perform?, moved]
      simp [record, Client.queue, queued, next]
    have rest := @ih next free rfl
    rw [List.append_assoc] at rest
    rw [List.length_cons, List.replicate_succ, performAll?, List.foldlM_cons, received]
    exact rest

end Roster

/-- The count of running flows is that of the dispatched flows whose tasks are not over, and none is
taken out twice. A flow whose work is over leaves it by itself. If nobody is underway, the flows that
were dispatched so far never send again: all that they sent is applied or queued, and behind a tick
the channel stays empty until there is another command. -/
theorem busy_iff_underway {state : State} {incidents : List Incident} {roster : Roster}
    (run : Roster.performAll? { client := { kernel := { state } } } incidents = some roster) :
    roster.client.kernel.inFlight = roster.fates.count .underway ∧
    (roster.client.kernel.isBusy ↔ .underway ∈ roster.fates) ∧
    (roster.numbers.length = roster.client.kernel.tasks.length ∧ roster.numbers.Nodup ∧
      ∀ n, n ∈ roster.numbers ↔ roster.fates[n]? = some .underway) ∧
    (∀ i settled, roster.client.kernel.settle? i = some settled →
      (∃ stage, roster.client.kernel.tasks[i]? = some stage ∧ stage.IsOver) ∧
      settled.inFlight + 1 = roster.client.kernel.inFlight) ∧
    (∃ settles last, (∀ incident ∈ settles, ∃ i, incident = .move (.settle i)) ∧
      roster.performAll? settles = some last ∧
      last.client.kernel.inFlight =
        roster.client.kernel.tasks.countP fun stage => ¬ stage.IsOver) ∧
    roster.sent.map (·.2) = roster.taken ++ roster.client.queue ∧
    (¬ roster.client.kernel.isBusy →
      (∀ later last, roster.performAll? later = some last →
        (∃ new, last.sent = roster.sent ++ new ∧
          ∀ n event, (some n, event) ∈ new → roster.fates.length ≤ n) ∧
        ((∀ command, .move (.dispatch command) ∉ later) → ¬ last.client.kernel.isBusy)) ∧
      (roster.client.awaited = none → ∃ ticked,
        roster.performAll? (List.replicate roster.client.queue.length (.move .receive)) =
          some ticked ∧
        ticked.client.kernel = roster.client.kernel.tick.1 ∧
        ticked.taken = roster.taken ++ roster.client.queue ∧
        ∀ later last, (∀ command, .move (.dispatch command) ∉ later) →
          (∀ command, .move (.execute command) ∉ later) →
          ticked.performAll? later = some last →
            last.sent = roster.sent ∧ last.client.queue = [])) := by
  have accurate := (Roster.accurate_initial state).performAll? run
  refine ⟨accurate.count.trans accurate.all.symm, accurate.isBusy_iff,
    ⟨accurate.tasks.symm, accurate.unique, accurate.underway⟩, fun i settled settles => ?_,
    accurate.exists_settled, accurate.events, fun idle => ?_⟩
  · simp only [Kernel.settle?, Option.bind_eq_bind, Option.bind_eq_some_iff] at settles
    obtain ⟨stage, stands, settles⟩ := settles
    obtain ⟨finished, settles⟩ := Option.ite_none_right_eq_some.1 settles
    cases settles
    refine ⟨⟨stage, stands, finished⟩, ?_⟩
    have inside := (List.getElem?_eq_some_iff.1 stands).1
    rw [accurate.tasks, ← accurate.count] at inside
    exact Nat.sub_add_cancel (Nat.one_le_of_lt inside)
  obtain ⟨none, alone⟩ := accurate.idle idle
  refine ⟨fun later last run => ⟨(accurate.silent none run).sent, fun undispatched busy => ?_⟩,
    fun free => ⟨_, Roster.performAll?_tick free, rfl, rfl, ?_⟩⟩
  · have last := accurate.performAll? run
    rw [last.isBusy_iff, ← List.count_pos_iff, last.all,
      accurate.stays_idle none undispatched run] at busy
    exact absurd busy (Nat.lt_irrefl 0)
  · intro later last undispatched unexecuted run
    let ticked : Roster := { roster with
      client.kernel := roster.client.kernel.tick.1
      taken := roster.taken ++ roster.client.queue }
    have start : ticked.Quiet ticked := ⟨free, alone, rfl, List.suffix_rfl⟩
    have quiet : ticked.Quiet last :=
      foldlM_keeps ticked.Quiet (fun incident among quiet => quiet.perform?
        (fun command same => undispatched command (same ▸ among))
        (fun command same => unexecuted command (same ▸ among))) start run
    exact ⟨quiet.sent, List.suffix_nil.1 quiet.queue⟩

/-- Of two flows one crashes and one is refused, while a refresh is executed and given up and the
state is changed from outside. A third flow, which is dispatched later, sends under its own number. -/
theorem busy_iff_underway_of_crashed :
    let incidents : List Incident := [.move (.dispatch .refresh),
      .move (.dispatch (.createProject "a")), .move (.advance (some 0)), .move (.advance (some 1)),
      .move (.advance (some 0)), .move (.execute .refresh), .move (.advance (some 0)),
      .move (.answerList (some 0) .crashed), .move (.advance none), .abandon, .overwrite {},
      .move (.settle 0), .move (.answer (some 0) (.failed (.http 500))), .move (.advance (some 0)),
      .refuse .refresh "no threads", .move (.settle 0)]
    let third : List Incident :=
      [.move (.dispatch .refresh), .move (.advance (some 0)), .move (.advance (some 0))]
    let still : List Incident := [.move (.edit id), .overwrite {}]
    ∃ roster, Roster.performAll? {} incidents = some roster ∧
      roster.fates = [.crashed, .finished] ∧ ¬ roster.client.kernel.isBusy ∧
      roster.client.awaited = none ∧
      roster.client.queue = [.refreshStarted 1, .createFailed] ∧
      (∃ last new, roster.performAll? third = some last ∧ last.sent = roster.sent ++ new ∧
        ∀ n event, (some n, event) ∈ new → 2 ≤ n) ∧
      ∃ ticked last, roster.performAll? [.move .receive, .move .receive] = some ticked ∧
        ticked.performAll? still = some last ∧ last.client.queue = [] := by
  intro incidents third still
  obtain ⟨roster, run, fates, free, queue, last, further, ticked, final, ticks, rest⟩ :
      ∃ roster, Roster.performAll? {} incidents = some roster ∧
        roster.fates = [.crashed, .finished] ∧ roster.client.awaited = none ∧
        roster.client.queue = [.refreshStarted 1, .createFailed] ∧
        ∃ last, roster.performAll? third = some last ∧
        ∃ ticked final, roster.performAll? [.move .receive, .move .receive] = some ticked ∧
          ticked.performAll? still = some final :=
    ⟨_, rfl, rfl, rfl, rfl, _, rfl, _, _, rfl, rfl⟩
  obtain ⟨-, busy, -, -, -, -, done⟩ := busy_iff_underway run
  have idle : ¬ roster.client.kernel.isBusy := by
    rw [busy, fates]
    decide
  obtain ⟨later, behind⟩ := done idle
  obtain ⟨⟨new, sent, foreign⟩, -⟩ := later third last further
  rw [fates] at foreign
  obtain ⟨ticked', ticks', -, -, stays⟩ := behind free
  rw [queue] at ticks'
  obtain rfl : ticked = ticked' := Option.some.inj (ticks.symm.trans ticks')
  have empty := (stays still final (by simp [still]) (by simp [still]) rest).2
  exact ⟨roster, run, fates, idle, free, queue, ⟨last, new, further, sent, foreign⟩, ticked, final,
    ticks, rest, empty⟩

end ProjectClient

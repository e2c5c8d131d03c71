import Mathlib.Data.List.Infix
import ProjectClient.Proofs.Kernel.Client
import ProjectClient.Proofs.Kernel.Pace

/-! Each failed call comes to light as one error. As long as no two flows are under way at once,
nothing is lost and nothing is told twice, whenever the reports are applied and however full the
channel is, unless the client started from the state of another one that was ahead of it. -/
namespace ProjectClient

namespace Status

def countErrors (statuses : List Status) : Nat :=
  statuses.countP (·.kind = .error)

@[simp]
theorem countErrors_nil : countErrors [] = 0 := rfl

@[simp]
theorem countErrors_append (first second : List Status) :
    countErrors (first ++ second) = countErrors first + countErrors second :=
  List.countP_append

end Status

def Stage.untold? (stage : Stage) : Option Status :=
  stage.event?.bind fun event => event.line?.join

def Move.fails : Move → Bool
  | answer _ outcome => outcome.isFailed
  | answerList _ outcome => outcome.isFailed
  | _ => false

namespace Client

def told? (client : Client) : Move → Option Status
  | .receive => client.kernel.outbox.channel.queue.head?.bind fun event =>
    (client.kernel.state.applyReporting event).2
  | _ => none

/-- The moves with all statuses that they write, oldest first. -/
def watch? (client : Client) : List Move → Option (Client × List Status)
  | [] => some (client, [])
  | move :: moves => do
    let next ← client.perform? move
    let (last, trail) ← next.watch? moves
    return (last, (client.told? move).toList ++ trail)

/-- No two flows are ever under way at once. -/
def TakesTurns (client : Client) (moves : List Move) : Prop :=
  ∀ before ∈ moves.inits, ∀ next ∈ client.performAll? before,
    next.flows.countP (fun stage => ¬ stage.IsOver) ≤ 1

instance (client : Client) (moves : List Move) : Decidable (client.TakesTurns moves) :=
  inferInstanceAs (Decidable (∀ before ∈ moves.inits, ∀ next ∈ client.performAll? before, _))

def untold (client : Client) : List Status :=
  client.flows.filterMap Stage.untold?

end Client

/-! ## Reports of a flow -/

namespace State

theorem applyReporting_eq (state : State) (event : Event) :
    state.applyReporting event =
      (state.apply event, if state.Heeds event then event.line?.join else none) := by
  have counted : state.statusRevision + 1 ≠ state.statusRevision := by simp
  have still : state.statusRevision = state.statusRevision := rfl
  by_cases heeds : state.Heeds event
  · rw [applyReporting, if_pos heeds]
    cases event with
    | refreshStarted token =>
      have newer : state.Supersedes token := heeds
      rw [apply, if_pos newer]
      exact congrArg _ (if_neg counted)
    | refreshFailed token =>
      have latest : state.latestRefresh = some token := heeds
      rw [apply, if_pos latest]
      exact congrArg _ (if_neg counted)
    | projectsLoaded token projects =>
      have latest : state.latestRefresh = some token := heeds
      rw [apply, if_pos latest]
      exact congrArg _ (if_pos still)
    | projectCreated | createFailed | projectDeleted | deleteFailed | userError =>
      exact congrArg _ (if_neg counted)
    | _ => exact congrArg _ (if_pos still)
  · rw [applyReporting, apply_of_not_heeds heeds, if_neg heeds]
    exact congrArg _ (if_pos still)

theorem written_of_heeds {state : State} {event : Event} (heeds : state.Heeds event) :
    (state.applyReporting event).2 = event.line?.join := by
  rw [applyReporting_eq, if_pos heeds]

theorem applyTrail_congr {first second : State} (same : first.latestRefresh = second.latestRefresh)
    (events : List Event) :
    (first.applyTrail events).2 = (second.applyTrail events).2 ∧
      (first.applyTrail events).1.latestRefresh = (second.applyTrail events).1.latestRefresh := by
  induction events generalizing first second with
  | nil => exact ⟨rfl, same⟩
  | cons event events ih =>
    obtain ⟨written, latest⟩ := ih (latestRefresh_apply_congr same event)
    simp only [applyTrail, applyReporting_eq, heeds_congr same event, written, latest, and_self]

/-- The start of the next refresh leaves it the newest, whether or not the start counted. -/
theorem Opened.start {state : State} {token : Token} (opened : state.Opened token) :
    (state.apply (.refreshStarted token)).latestRefresh = some token := by
  by_cases newer : state.Supersedes token
  · exact latestRefresh_apply_of_opens newer
  · have older : ¬ state.Heeds (.refreshStarted token) := newer
    rw [apply_of_not_heeds older]
    cases known : state.latestRefresh with
    | none => exact absurd (fun latest h => by cases known.symm.trans h) newer
    | some latest =>
      have most := opened latest known
      have least : ¬ latest < token := fun less => newer fun other h => by
        cases known.symm.trans h
        exact less
      rw [Nat.le_antisymm most (Nat.le_of_not_lt least)]

end State

namespace Stage

/-- The refresh of the flow is, or will be, the newest when all that is queued was applied. -/
def IsNewest (applied : State) (issued : Nat) : Stage → Prop
  | announcing token => token = issued ∧ applied.Opened token
  | listing token | awaitingList token | delivering token _ =>
    applied.latestRefresh = some token
  | _ => True

theorem IsNewest.of_isOver {applied : State} {issued : Nat} {stage : Stage}
    (finished : stage.IsOver) : stage.IsNewest applied issued := by
  rcases finished with rfl | rfl <;> trivial

theorem IsNewest.congr {applied other : State} {issued : Nat} {stage : Stage}
    (same : applied.latestRefresh = other.latestRefresh) (newest : stage.IsNewest applied issued) :
    stage.IsNewest other issued := by
  cases stage with
  | announcing =>
    obtain ⟨next, opened⟩ := newest
    exact ⟨next, opened.congr same.symm⟩
  | listing | awaitingList | delivering => exact same.symm.trans newest
  | _ => trivial

theorem IsNewest.advance? {applied : State} {outbox outbox' : Outbox} {stage next : Stage}
    (newest : stage.IsNewest applied outbox.issued) (opened : applied.Opened (outbox.issued + 1))
    (moved : stage.advance? outbox = some (next, outbox')) :
    let after := applied.applyTrail stage.event?.toList
    next.IsNewest after.1 outbox'.issued ∧ after.1.Opened (outbox'.issued + 1) ∧
      Status.countErrors (after.2 ++ next.untold?.toList) =
        Status.countErrors stage.untold?.toList := by
  dsimp only
  obtain ⟨deed, -, does, shares, -⟩ := does_of_advance? moved
  cases does with
  | call | ask =>
    cases shares
    exact ⟨newest, opened, rfl⟩
  | take =>
    cases shares
    exact ⟨⟨rfl, opened⟩, fun latest h => Nat.le_succ_of_le (opened latest h), rfl⟩
  | answer | list => cases moved
  | confirm mutation | refuse mutation =>
    rw [(Outbox.send?_eq_some shares).1, event?, Option.toList_some, State.applyTrail_singleton,
      State.written_of_heeds (mutation.heeds_report _ applied)]
    exact ⟨trivial, opened.report mutation _, congrArg _ (List.append_nil _)⟩
  | announce token =>
    obtain ⟨rfl, older⟩ := newest
    rw [(Outbox.send?_eq_some shares).1, event?, Option.toList_some, State.applyTrail_singleton,
      State.applyReporting_eq]
    refine ⟨older.start, .of_latest older.start (Nat.le_succ _), ?_⟩
    dsimp only
    split <;> rfl
  | load token projects =>
    have latest : applied.Heeds (.projectsLoaded token projects) := newest
    rw [(Outbox.send?_eq_some shares).1, event?, Option.toList_some, State.applyTrail_singleton,
      State.written_of_heeds latest]
    exact ⟨trivial, opened.apply rfl, rfl⟩
  | fail token =>
    have latest : applied.Heeds (.refreshFailed token) := newest
    rw [(Outbox.send?_eq_some shares).1, event?, Option.toList_some, State.applyTrail_singleton,
      State.written_of_heeds latest]
    exact ⟨trivial, opened.apply rfl, rfl⟩

theorem untold?_ofFlow (flow : Flow) : (ofFlow flow).untold? = none := by
  cases flow <;> rfl

theorem isNewest_ofFlow (flow : Flow) (applied : State) (issued : Nat) :
    (ofFlow flow).IsNewest applied issued := by
  cases flow <;> trivial

theorem isNewest_answered (mutation : Mutation) (outcome : Outcome Unit) (applied : State)
    (issued : Nat) : (answered mutation outcome).IsNewest applied issued := by
  cases outcome <;> trivial

theorem IsNewest.listed {applied : State} {issued : Nat} {token : Token}
    (newest : (awaitingList token).IsNewest applied issued) (outcome : Outcome (List Project)) :
    (Stage.listed token outcome).IsNewest applied issued := by
  cases outcome with
  | crashed => trivial
  | ok | failed => exact newest

theorem untold?_of_isOver {stage : Stage} (finished : stage.IsOver) : stage.untold? = none := by
  rcases finished with rfl | rfl <;> rfl

theorem countErrors_answered (mutation : Mutation) (outcome : Outcome Unit) :
    Status.countErrors (answered mutation outcome).untold?.toList = outcome.isFailed.toNat := by
  cases mutation <;> cases outcome <;> rfl

theorem countErrors_listed (token : Token) (outcome : Outcome (List Project)) :
    Status.countErrors (listed token outcome).untold?.toList = outcome.isFailed.toNat := by
  cases outcome <;> rfl

end Stage

/-! ## Runs -/

namespace Client

def ahead (client : Client) : State × List Status :=
  client.kernel.state.applyTrail client.kernel.outbox.channel.queue

def owed (client : Client) : Nat :=
  Status.countErrors (client.ahead.2 ++ client.untold)

structure IsCurrent (client : Client) : Prop where
  listening : client.kernel.outbox.channel.isOpen
  opened : client.ahead.1.Opened (client.kernel.outbox.issued + 1)
  newest : ∀ stage ∈ client.flows, stage.IsNewest client.ahead.1 client.kernel.outbox.issued

variable {client next last : Client} {move : Move} {moves : List Move} {trail : List Status}

theorem countErrors_untold {stage : Stage} {rest : List Stage}
    (flows : client.flows.Perm (stage :: rest)) :
    Status.countErrors client.untold =
      Status.countErrors stage.untold?.toList +
        Status.countErrors (rest.filterMap Stage.untold?) := by
  rw [untold, Status.countErrors, (flows.filterMap _).countP_eq, List.filterMap_cons]
  cases stage.untold? with
  | none => exact (Nat.zero_add _).symm
  | some status => exact Status.countErrors_append [status] _

/-- Whatever else a move changes, the reports of the flows come to the same. -/
theorem IsCurrent.turn (current : client.IsCurrent)
    (latest : next.kernel.state.latestRefresh = client.kernel.state.latestRefresh)
    (outbox : next.kernel.outbox = client.kernel.outbox)
    (flows : ∀ stage ∈ next.flows, stage ∈ client.flows ∨
      ∀ applied issued, stage.IsNewest applied issued)
    (untold : Status.countErrors next.untold = Status.countErrors client.untold) :
    next.IsCurrent ∧ next.owed = client.owed := by
  obtain ⟨written, applied⟩ : next.ahead.2 = client.ahead.2 ∧
      next.ahead.1.latestRefresh = client.ahead.1.latestRefresh := by
    rw [ahead, ahead, outbox]
    exact State.applyTrail_congr latest _
  refine ⟨⟨outbox ▸ current.listening, ?_, fun stage among => ?_⟩, ?_⟩
  · rw [outbox]
    exact current.opened.congr applied
  · rw [outbox]
    rcases flows stage among with old | fresh
    · exact (current.newest stage old).congr applied.symm
    · exact fresh _ _
  · rw [owed, owed, Status.countErrors_append, Status.countErrors_append, written, untold]

theorem isOver_of_single {stage : Stage} {rest : List Stage}
    (flows : client.flows.Perm (stage :: rest))
    (single : client.flows.countP (fun stage => ¬ stage.IsOver) ≤ 1)
    (unfinished : ¬ stage.IsOver) : ∀ other ∈ rest, other.IsOver := by
  rw [flows.countP_eq, List.countP_cons, if_pos (decide_eq_true unfinished)] at single
  have none := List.countP_eq_zero.1 (Nat.le_zero.1 (Nat.le_of_succ_le_succ single))
  simpa using none

theorem IsCurrent.advance (current : client.IsCurrent)
    (single : client.flows.countP (fun stage => ¬ stage.IsOver) ≤ 1) {flow : Option Nat}
    {stage stage' : Stage} {outbox : Outbox} (stands : client.stage? flow = some stage)
    (moved : stage.advance? client.kernel.outbox = some (stage', outbox)) (log : List Happening) :
    (client.follow flow stage' outbox log).IsCurrent ∧
      (client.follow flow stage' outbox log).owed = client.owed := by
  obtain ⟨rest, flows, followed⟩ := flows_follow stands
  have flows' := followed stage' outbox log
  have unfinished : ¬ stage.IsOver := by
    rintro (rfl | rfl) <;> cases moved
  have others := isOver_of_single flows single unfinished
  have own := current.newest stage (flows.mem_iff.2 List.mem_cons_self)
  obtain ⟨newest, opened, same⟩ := own.advance? current.opened moved
  obtain ⟨listening, queue⟩ := Stage.queue_advance? current.listening moved
  have ahead : (client.follow flow stage' outbox log).ahead =
      ((client.ahead.1.applyTrail stage.event?.toList).1,
        client.ahead.2 ++ (client.ahead.1.applyTrail stage.event?.toList).2) := by
    rw [Client.ahead, state_follow]
    exact (congrArg _ queue).trans (State.applyTrail_append _ _ _)
  refine ⟨⟨listening, ?_, fun other among => ?_⟩, ?_⟩
  · rw [ahead]
    exact opened
  · rw [ahead]
    rcases List.mem_cons.1 (flows'.mem_iff.1 among) with rfl | among
    · exact newest
    · exact .of_isOver (others other among)
  · rw [Status.countErrors_append] at same
    rw [owed, owed, ahead, Status.countErrors_append, Status.countErrors_append,
      Status.countErrors_append, countErrors_untold flows, countErrors_untold flows']
    omega

theorem IsCurrent.answer (current : client.IsCurrent) {flow : Option Nat} {stage : Stage}
    (stands : client.stage? flow = some stage) (other : Stage) (waits : stage.untold? = none)
    (newest : ∀ applied issued, stage.IsNewest applied issued → other.IsNewest applied issued) :
    (client.follow flow other client.kernel.outbox client.log).IsCurrent ∧
      (client.follow flow other client.kernel.outbox client.log).owed =
        client.owed + Status.countErrors other.untold?.toList := by
  obtain ⟨rest, flows, followed⟩ := flows_follow stands
  have flows' := followed other client.kernel.outbox client.log
  have ahead : (client.follow flow other client.kernel.outbox client.log).ahead = client.ahead := by
    rw [Client.ahead, state_follow]
    rfl
  refine ⟨⟨current.listening, ?_, fun among inFlows => ?_⟩, ?_⟩
  · rw [ahead]
    exact current.opened
  · rw [ahead]
    rcases List.mem_cons.1 (flows'.mem_iff.1 inFlows) with rfl | inRest
    · exact newest _ _ (current.newest stage (flows.mem_iff.2 List.mem_cons_self))
    · exact current.newest among (flows.mem_iff.2 (List.mem_cons_of_mem stage inRest))
  · rw [owed, owed, ahead, Status.countErrors_append, Status.countErrors_append,
      countErrors_untold flows, countErrors_untold flows', waits]
    simp only [Option.toList_none, Status.countErrors_nil]
    omega

theorem IsCurrent.start (current : client.IsCurrent)
    (latest : next.kernel.state.latestRefresh = client.kernel.state.latestRefresh)
    (outbox : next.kernel.outbox = client.kernel.outbox) (new : List Stage)
    (flows : next.flows.Perm (new ++ client.flows))
    (fresh : ∀ stage ∈ new, stage.untold? = none ∧
      ∀ applied issued, stage.IsNewest applied issued) :
    next.IsCurrent ∧ next.owed = client.owed := by
  refine current.turn latest outbox (fun stage among => ?_) ?_
  · rcases List.mem_append.1 (flows.mem_iff.1 among) with isNew | old
    · exact .inr (fresh stage isNew).2
    · exact .inl old
  · have silent : new.filterMap Stage.untold? = [] :=
      List.filterMap_eq_nil_iff.2 fun stage isNew => (fresh stage isNew).1
    rw [untold, Status.countErrors, (flows.filterMap _).countP_eq, List.filterMap_append, silent]
    rfl

theorem IsCurrent.leave (current : client.IsCurrent)
    (latest : next.kernel.state.latestRefresh = client.kernel.state.latestRefresh)
    (outbox : next.kernel.outbox = client.kernel.outbox) {stage : Stage}
    (flows : client.flows.Perm (stage :: next.flows)) (finished : stage.IsOver) :
    next.IsCurrent ∧ next.owed = client.owed := by
  refine current.turn latest outbox (fun other among => .inl ?_) ?_
  · exact flows.mem_iff.2 (List.mem_cons_of_mem stage among)
  · rw [countErrors_untold flows, Stage.untold?_of_isOver finished]
    exact (Nat.zero_add _).symm

/-- What a move tells is no longer owed, and a call that fails is owed from then on. -/
theorem IsCurrent.perform? (current : client.IsCurrent)
    (single : client.flows.countP (fun stage => ¬ stage.IsOver) ≤ 1)
    (performed : client.perform? move = some next) :
    next.IsCurrent ∧
      Status.countErrors (client.told? move).toList + next.owed =
        client.owed + move.fails.toNat := by
  have silent {next : Client} (kept : next.IsCurrent ∧ next.owed = client.owed) :
      next.IsCurrent ∧ 0 + next.owed = client.owed := ⟨kept.1, (Nat.zero_add _).trans kept.2⟩
  cases perform?_eq_some.1 performed with
  | dispatch command idle =>
    have latest := client.kernel.state.latestRefresh_accept command
    rw [← state_dispatch] at latest
    refine silent (current.start latest (outbox_dispatch client.kernel command)
      ((client.kernel.state.accept command).2.map Stage.ofFlow).toList ?_ fun stage started => ?_)
    · rw [flows, flows, idle, tasks_dispatch, Option.toList_none, List.nil_append, List.nil_append]
      exact List.perm_append_comm
    · obtain ⟨flow, -, rfl⟩ := Option.map_eq_some_iff.1 (Option.mem_toList.1 started)
      exact ⟨Stage.untold?_ofFlow flow, Stage.isNewest_ofFlow flow⟩
  | execute command idle =>
    refine silent (current.start (client.kernel.state.latestRefresh_accept command) rfl
      [(client.kernel.state.accept command).2.elim .ended .ofFlow] ?_ fun stage started => ?_)
    · rw [flows, flows, idle]
      exact .refl _
    · rw [List.mem_singleton.1 started]
      cases (client.kernel.state.accept command).2 with
      | none => exact ⟨rfl, fun _ _ => trivial⟩
      | some flow => exact ⟨Stage.untold?_ofFlow flow, Stage.isNewest_ofFlow flow⟩
  | receive event rest ready queued =>
    let next : Client := { client with
      kernel.state := client.kernel.state.apply event
      kernel.outbox.channel.queue := rest }
    have ahead : client.ahead =
        (next.ahead.1, (client.told? .receive).toList ++ next.ahead.2) := by
      rw [Client.ahead, told?, queued]
      rfl
    obtain ⟨listening, opened, newest⟩ := current
    rw [ahead] at opened newest
    refine ⟨⟨listening, opened, newest⟩, ?_⟩
    rw [owed, owed, ahead, Status.countErrors_append, Status.countErrors_append,
      Status.countErrors_append]
    exact (Nat.add_assoc _ _ _).symm
  | conclude finished =>
    rcases finished with ⟨ended, -⟩ | crashed
    · refine silent (current.leave rfl rfl ?_ (.inl rfl))
      rw [flows, ended]
      exact .refl _
    · refine silent (current.leave rfl rfl ?_ (.inr rfl))
      rw [flows, crashed]
      exact .refl _
  | edit edit idle =>
    exact silent (current.start rfl rfl [] (.refl _)
      fun _ among => absurd among List.not_mem_nil)
  | advance flow stands moved => exact silent (current.advance single stands moved _)
  | @answer flow outcome mutation stands =>
    obtain ⟨current', owed⟩ := current.answer stands (.answered mutation outcome) rfl
      fun applied issued _ => Stage.isNewest_answered mutation outcome applied issued
    rw [Stage.countErrors_answered] at owed
    exact ⟨current', (Nat.zero_add _).trans owed⟩
  | @answerList flow outcome token stands =>
    obtain ⟨current', owed⟩ := current.answer stands (.listed token outcome) rfl
      fun _ _ newest => newest.listed outcome
    rw [Stage.countErrors_listed] at owed
    exact ⟨current', (Nat.zero_add _).trans owed⟩
  | settle i stands finished =>
    exact silent (current.leave rfl rfl (flows_eraseIdx stands) finished)

theorem TakesTurns.single (turns : client.TakesTurns moves) :
    client.flows.countP (fun stage => ¬ stage.IsOver) ≤ 1 :=
  turns [] ((List.mem_inits _ _).2 List.nil_prefix) client rfl

theorem TakesTurns.tail (turns : client.TakesTurns (move :: moves))
    (performed : client.perform? move = some next) : next.TakesTurns moves := by
  intro before start last run
  refine turns (move :: before) ?_ last ?_
  · rw [List.mem_inits, List.cons_prefix_cons]
    exact ⟨rfl, (List.mem_inits _ _).1 start⟩
  · rw [performAll?, List.foldlM_cons, performed]
    exact run

theorem IsCurrent.watch? (current : client.IsCurrent) (turns : client.TakesTurns moves)
    (run : client.watch? moves = some (last, trail)) :
    Status.countErrors trail + last.owed = client.owed + moves.countP Move.fails := by
  induction moves generalizing client trail with
  | nil =>
    cases run
    exact Nat.zero_add _
  | cons move moves ih =>
    simp only [Client.watch?, Option.bind_eq_bind, Option.bind_eq_some_iff, Option.pure_def,
      Option.some.injEq] at run
    obtain ⟨next, performed, ⟨last', later⟩, run, same⟩ := run
    cases same
    obtain ⟨current', step⟩ := current.perform? turns.single performed
    have rest : Status.countErrors later + last'.owed = _ :=
      ih current' (turns.tail performed) run
    dsimp only
    rw [Status.countErrors_append, List.countP_cons]
    have counted : (if move.fails then 1 else 0) = move.fails.toNat := by
      cases move.fails <;> rfl
    omega

theorem performAll?_of_watch? (run : client.watch? moves = some (last, trail)) :
    client.performAll? moves = some last := by
  induction moves generalizing client trail with
  | nil =>
    cases run
    rfl
  | cons move moves ih =>
    simp only [Client.watch?, Option.bind_eq_bind, Option.bind_eq_some_iff, Option.pure_def,
      Option.some.injEq] at run
    obtain ⟨next, performed, ⟨last', later⟩, run, same⟩ := run
    cases same
    rw [performAll?, List.foldlM_cons, performed]
    exact ih run

theorem TakesTurns.length_untold_le (turns : client.TakesTurns moves)
    (run : client.performAll? moves = some last) : last.untold.length ≤ 1 := by
  have single := turns moves ((List.mem_inits _ _).2 List.prefix_rfl) last run
  rw [untold, List.length_filterMap_eq_countP]
  refine Nat.le_trans (List.countP_mono_left fun stage _ tells => ?_) single
  have unfinished : ¬ stage.IsOver := by
    intro finished
    rw [Stage.untold?_of_isOver finished] at tells
    cases tells
  exact decide_eq_true unfinished

theorem isCurrent_of_opened (atRest : client.flows = [])
    (empty : client.kernel.outbox.channel.queue = [])
    (listening : client.kernel.outbox.channel.isOpen)
    (opened : client.kernel.state.Opened (client.kernel.outbox.issued + 1)) :
    client.IsCurrent ∧ client.owed = 0 := by
  have ahead : client.ahead = (client.kernel.state, []) := by
    rw [Client.ahead, empty]
    rfl
  refine ⟨⟨listening, by rwa [ahead], by simp [atRest]⟩, ?_⟩
  rw [owed, ahead, untold, atRest]
  rfl

theorem countErrors_of_watch? (atRest : client.flows = [])
    (empty : client.kernel.outbox.channel.queue = [])
    (listening : client.kernel.outbox.channel.isOpen)
    (opened : client.kernel.state.Opened (client.kernel.outbox.issued + 1))
    (turns : client.TakesTurns moves) (run : client.watch? moves = some (last, trail)) :
    Status.countErrors (trail ++ last.kernel.tick.2 ++ last.untold) = moves.countP Move.fails ∧
      last.untold.length ≤ 1 := by
  obtain ⟨current, nothing⟩ := isCurrent_of_opened atRest empty listening opened
  have told := current.watch? turns run
  rw [nothing, Nat.zero_add] at told
  refine ⟨?_, turns.length_untold_le (performAll?_of_watch? run)⟩
  rw [List.append_assoc, Status.countErrors_append]
  exact told

end Client

end ProjectClient

import ProjectClient.Proofs.Flow.Snapshot
import ProjectClient.Proofs.Flow.Stale

/-! The status line while flows overlap and the user clears it at will. A status of kind info or
success is only shown while something is under way that will replace it. -/
namespace ProjectClient

namespace State

/-- An info in the status line comes from the start of the newest refresh, and no result of that
refresh has come in since. -/
theorem exists_opened_of_info {events : List Event} {status : Status}
    (shown : (({} : State).applyAll events).status = some status) (info : status.kind = .info) :
    ∃ token before after, events = before ++ .refreshStarted token :: after ∧
      (({} : State).applyAll events).latestRefresh = some token ∧
      ∀ event ∈ after, event.resolves? ≠ some token := by
  rcases quiet_or_last_writer {} events with
    quiet | ⟨before, writer, after, rfl, heeds, line, quiet⟩
  · rw [(applyAll_of_quiet quiet).1] at shown
    cases shown
  · rw [shown] at line
    obtain ⟨token, rfl⟩ := Event.opens?_of_info line info
    have latest := latestRefresh_apply_of_opens heeds
    refine ⟨token, before, after, rfl, ?_, quiet.resolves?_ne latest⟩
    rw [applyAll_append]
    exact (applyAll_of_quiet quiet).2.2.trans latest

/-- A success in the status line comes from the report of a change, and no refresh has started
since that is newer than all that had started before. -/
theorem exists_reported_of_success {events : List Event} {status : Status}
    (shown : (({} : State).applyAll events).status = some status)
    (success : status.kind = .success) :
    ∃ report before after, events = before ++ report :: after ∧ report.IsSuccess ∧
      ∀ token, .refreshStarted token ∈ after →
        ∃ newer, .refreshStarted newer ∈ before ∧ token ≤ newer := by
  rcases quiet_or_last_writer {} events with
    quiet | ⟨before, writer, after, rfl, heeds, line, quiet⟩
  · rw [(applyAll_of_quiet quiet).1] at shown
    cases shown
  · rw [shown] at line
    have reports := Event.isSuccess_of_success line success
    refine ⟨writer, before, after, rfl, reports, fun token started => ?_⟩
    have old := quiet.not_supersedes started
    rw [supersedes_apply, supersedes_applyAll] at old
    have silent : writer.opens? = none := by
      rcases reports with rfl | rfl <;> rfl
    simpa [silent, Supersedes] using old

end State

def Stage.fetching? : Stage → Option Token
  | listing token => some token
  | awaitingList token => some token
  | delivering token _ => some token
  | _ => none

def History.heard (story : History) (flows : Flows) : List (Nat × Event) :=
  story.sends.take flows.received.length

/-- The refresh has no result so far: it is still to be answered, sent or received, or its call
crashed. -/
structure History.Unresolved (story : History) (flows : Flows) (token : Token) : Prop where
  unheard : ∀ event ∈ flows.received, event.resolves? ≠ some token
  pending : (∃ stage ∈ flows.stages, stage.fetching? = some token) ∨
    (∃ event ∈ flows.outbox.channel.queue, event.resolves? = some token) ∨
    ∃ i, (i, .listed token .crashed) ∈ story

/-- The events applied are the received ones, with clearings of the status line by the user anywhere
between them. -/
def Flows.ClearedIn (flows : Flows) (applied : List Event) : Prop :=
  applied.filter (· ≠ .statusCleared) = flows.received

namespace Flows.Reached

variable {capacity : Nat} {story earlier later : History} {flows : Flows} {i : Nat}

theorem split_received (reached : (withCapacity capacity).Reached story flows)
    {first second : List Event} {event : Event} (h : flows.received = first ++ event :: second) :
    ∃ earlier i later, story = earlier ++ (i, .sent event) :: later ∧
      (History.sends earlier).map (·.2) = first ∧
      story.heard flows = History.sends earlier ++ (i, event) ::
        (History.sends later).take second.length ∧
      ((History.sends later).take second.length).map (·.2) = second := by
  obtain ⟨rest, whole⟩ := reached.received_prefix
  rw [h, List.append_assoc, List.cons_append] at whole
  obtain ⟨front, back, hs, hf, hb⟩ := List.map_eq_append_iff.1 whole.symm
  obtain ⟨⟨i, own⟩, tail, rfl, rfl, ht⟩ := List.map_eq_cons_iff.1 hb
  obtain ⟨earlier, later, rfl, he, hl⟩ := History.exists_of_sends_eq hs
  have length : flows.received.length = front.length + (second.length + 1) := by
    rw [h, ← hf]
    simp
  refine ⟨earlier, i, later, rfl, by rw [he, hf], ?_, ?_⟩
  · rw [History.heard, hs, length, he, hl, List.take_length_add_append, List.take_succ_cons]
  · rw [hl, List.map_take, ht, List.take_left]

theorem mem_heard_of_rest (reached : (withCapacity capacity).Reached story flows)
    (rest : flows.AtRest) {event : Event} (h : (i, .sent event) ∈ story) :
    (i, event) ∈ story.heard flows := by
  have all : flows.received.length = story.sends.length := by
    rw [← reached.received_of_rest rest, List.length_map]
  rw [History.heard, all, List.take_length]
  exact History.mem_sends.2 h

theorem resolves?_ne_before_start (reached : (withCapacity capacity).Reached story flows)
    {first second : List Event} {token : Token}
    (h : flows.received = first ++ .refreshStarted token :: second) :
    ∀ event ∈ first, event.resolves? ≠ some token := by
  intro event member resolves
  obtain ⟨earlier, i, later, rfl, he, _⟩ := reached.split_received h
  rw [← he] at member
  obtain ⟨⟨j, own⟩, sent, rfl⟩ := List.mem_map.1 member
  have before := History.mem_sends.1 sent
  obtain ⟨flow, hd⟩ := reached.past_of_opened
  obtain ⟨_, _, answer⟩ := reached.listed_of_resolved resolves (List.mem_append_left _ before)
  have mine : (i, .took token) ∈ earlier := by
    rw [← History.mem_deedsOf]
    simp [hd]
  have same := reached.owner_unique (List.mem_append_left _ mine) (reached.took_of_listed answer)
  subst same
  have lead : .sent own ∈ flow.lead := by
    have told := History.mem_deedsOf.2 before
    rw [hd] at told
    simpa using told
  rw [Flow.resolves?_of_mem_lead lead] at resolves
  cases resolves

theorem fetching_or_resolved (reached : (withCapacity capacity).Reached story flows)
    {token : Token} (started : (i, .sent (.refreshStarted token)) ∈ story) :
    (∃ stage ∈ flows.stages, stage.fetching? = some token) ∨
    (∃ event, (i, .sent event) ∈ story ∧ event.resolves? = some token) ∨
    (i, .listed token .crashed) ∈ story := by
  obtain ⟨stage, at_i⟩ := reached.stage_of_mem started
  obtain ⟨flow, deeds, hd, past⟩ := reached.tells.past at_i
  have own := History.mem_deedsOf.2 started
  rw [hd] at own
  have here : stage ∈ flows.stages := List.mem_of_getElem? at_i
  -- The start is in the past of no stage before the one that it leads to.
  cases stage with
  | calling | awaiting | starting | announcing =>
    simp_all [Stage.Past, Flow.opened_notMem_lead]
  | reporting mutation accepted =>
    cases accepted with
    | true => simp_all [Stage.Past]
    | false =>
      obtain ⟨_, error, rfl⟩ := past
      simp at own
  | listing other | awaitingList other =>
    cases past
    have same : token = other := by simpa [Flow.opened_notMem_lead] using own
    exact .inl ⟨_, here, congrArg some same.symm⟩
  | delivering other listed =>
    obtain ⟨outcome, _, rfl⟩ := past
    have same : token = other := by simpa [Flow.opened_notMem_lead] using own
    exact .inl ⟨_, here, congrArg some same.symm⟩
  | ended =>
    obtain ⟨_, outcome, report, told, life⟩ :=
      reached.life_of_ended (reached.took_of_opened started) at_i
    refine .inr (.inl ⟨report, ?_, Outcome.resolves?_report told⟩)
    rw [← History.mem_deedsOf, life]
    simp
  | crashed =>
    rcases past with ⟨mutation, _, rfl⟩ | ⟨other, rfl⟩
    · simp at own
    · have same : token = other := by simpa [Flow.opened_notMem_lead] using own
      subst same
      refine .inr (.inr ?_)
      rw [← History.mem_deedsOf, hd]
      simp

theorem unresolved_of_info (reached : (withCapacity capacity).Reached story flows)
    (listening : flows.outbox.channel.isOpen) {applied : List Event}
    (cleared : flows.ClearedIn applied) {status : Status}
    (shown : (({} : State).applyAll applied).status = some status) (info : status.kind = .info) :
    ∃ token, (({} : State).applyAll applied).latestRefresh = some token ∧
      story.Unresolved flows token := by
  obtain ⟨token, before, after, rfl, latest, open_⟩ := State.exists_opened_of_info shown info
  have split : flows.received = before.filter (· ≠ .statusCleared) ++
      .refreshStarted token :: after.filter (· ≠ .statusCleared) := by
    rw [← cleared, List.filter_append, List.filter_cons_of_pos (by simp)]
  have unheard : ∀ event ∈ flows.received, event.resolves? ≠ some token := by
    intro event member
    rw [split] at member
    rcases List.mem_append.1 member with first | second
    · exact reached.resolves?_ne_before_start split event first
    · rcases List.mem_cons.1 second with rfl | second
      · simp [Event.resolves?]
      · exact open_ event (List.mem_filter.1 second).1
  refine ⟨token, latest, unheard, ?_⟩
  have received : .refreshStarted token ∈ flows.received := by
    rw [split]
    simp
  obtain ⟨i, started⟩ := reached.exists_sent received
  rcases reached.fetching_or_resolved started with fetching | ⟨event, sent, resolves⟩ | crashed
  · exact .inl fetching
  · have told : event ∈ story.sends.map (·.2) :=
      List.mem_map.2 ⟨_, History.mem_sends.2 sent, rfl⟩
    rw [reached.events.2 listening] at told
    rcases List.mem_append.1 told with old | waits
    · exact absurd resolves (unheard event old)
    · exact .inr (.inl ⟨event, waits, resolves⟩)
  · exact .inr (.inr ⟨i, crashed⟩)

theorem reported_of_success (reached : (withCapacity capacity).Reached story flows)
    {applied : List Event} (cleared : flows.ClearedIn applied) {status : Status}
    (shown : (({} : State).applyAll applied).status = some status)
    (success : status.kind = .success) :
    ∃ i report, (i, report) ∈ story.heard flows ∧ report.IsSuccess ∧
      ∀ token, (i, .refreshStarted token) ∉ story.heard flows := by
  obtain ⟨report, before, after, rfl, reports, old⟩ :=
    State.exists_reported_of_success shown success
  have split : flows.received = before.filter (· ≠ .statusCleared) ++
      report :: after.filter (· ≠ .statusCleared) := by
    have kept : report ≠ .statusCleared := by
      rcases reports with rfl | rfl <;> simp
    rw [← cleared, List.filter_append, List.filter_cons_of_pos (by simpa using kept)]
  obtain ⟨earlier, i, later, rfl, he, heard, hl⟩ := reached.split_received split
  refine ⟨i, report, by rw [heard]; simp, reports, fun token started => ?_⟩
  have sent := List.mem_of_mem_take started
  have taken := reached.took_behind_success (.inr ⟨_, rfl, reports⟩)
    (reached.took_of_opened (History.mem_sends.1 sent))
  rw [heard] at started
  rcases List.mem_append.1 started with early | behind
  · obtain ⟨flow, mutation, hd⟩ := reached.past_of_success reports
    have own := History.mem_deedsOf.2 (History.mem_sends.1 early)
    simp [hd] at own
  rcases List.mem_cons.1 behind with now | late
  · cases now
    simp [Event.IsSuccess] at reports
  -- The flow took its token behind its report, so behind every token that had started before.
  have again : .refreshStarted token ∈ after.filter (· ≠ .statusCleared) := by
    rw [← hl]
    exact List.mem_map.2 ⟨_, late, rfl⟩
  obtain ⟨newer, first, le⟩ := old token (List.mem_filter.1 again).1
  have told : .refreshStarted newer ∈ (History.sends earlier).map (·.2) := by
    rw [he]
    exact List.mem_filter.2 ⟨first, by simp⟩
  obtain ⟨⟨j, own⟩, start, rfl⟩ := List.mem_map.1 told
  obtain ⟨_, _, before, _⟩ := reached.at_deed
  have lt := reached.token_lt (before.took_of_opened (History.mem_sends.1 start))
    (List.mem_cons_of_mem _ taken)
  exact Nat.not_lt_of_le le lt

theorem not_unresolved_of_rest (reached : (withCapacity capacity).Reached story flows)
    (rest : flows.AtRest) {token : Token} : ¬ story.Unresolved flows token := by
  rintro ⟨_, ⟨stage, member, fetching⟩ | ⟨event, waits, _⟩ | ⟨i, crashed⟩⟩
  · rw [rest.ended stage member] at fetching
    cases fetching
  · rw [rest.empty] at waits
    cases waits
  · obtain ⟨flow, outcome, report, told, hd⟩ :=
      reached.life_of_ended (reached.took_of_listed crashed) (reached.ended_of_mem rest crashed)
    have listed := History.mem_deedsOf.2 crashed
    rw [hd] at listed
    have same : .crashed = outcome := by simpa [Flow.listed_notMem_lead] using listed
    rw [← same] at told
    cases told

theorem started_of_rest (reached : (withCapacity capacity).Reached story flows)
    (rest : flows.AtRest) {report : Event} (heard : (i, report) ∈ story.heard flows)
    (success : report.IsSuccess) : ∃ token, (i, .refreshStarted token) ∈ story.heard flows := by
  have sent := History.mem_sends.1 (List.mem_of_mem_take heard)
  have ended := reached.ended_of_mem rest sent
  obtain ⟨earlier, later, rfl⟩ := List.append_of_mem sent
  obtain ⟨token, taken⟩ := reached.exists_took_behind_success (.inr ⟨_, rfl, success⟩) ended
  obtain ⟨flow, outcome, _, _, hd⟩ := reached.life_of_ended
    (List.mem_append_right _ (List.mem_cons_of_mem _ taken)) ended
  refine ⟨token, reached.mem_heard_of_rest rest ?_⟩
  rw [← History.mem_deedsOf, hd]
  simp

end Flows.Reached

/-- No stuck progress: an info is shown only while the newest refresh has no result, a success only
while the refresh behind a reported change has not started, and at rest neither is shown. -/
theorem progress_is_pending {capacity : Nat} {actions : List Action} {flows : Flows}
    (run : (Flows.withCapacity capacity).performAll? actions = some flows)
    (listening : flows.outbox.channel.isOpen) {applied : List Event}
    (cleared : flows.ClearedIn applied) :
    (∀ status, (({} : State).applyAll applied).status = some status → status.kind = .info →
      ∃ token, (({} : State).applyAll applied).latestRefresh = some token ∧
        ((Flows.withCapacity capacity).history actions).Unresolved flows token) ∧
    (∀ status, (({} : State).applyAll applied).status = some status → status.kind = .success →
      ∃ i report, (i, report) ∈ ((Flows.withCapacity capacity).history actions).heard flows ∧
        report.IsSuccess ∧ ∀ token, (i, .refreshStarted token) ∉
          ((Flows.withCapacity capacity).history actions).heard flows) ∧
    (flows.AtRest → ∀ status, (({} : State).applyAll applied).status = some status →
      status.kind = .error) := by
  have reached := Flows.reached_of_performAll? run
  refine ⟨fun status shown info => reached.unresolved_of_info listening cleared shown info,
    fun status shown success => reached.reported_of_success cleared shown success,
    fun rest status shown => ?_⟩
  cases hk : status.kind with
  | info =>
    obtain ⟨token, _, unresolved⟩ := reached.unresolved_of_info listening cleared shown hk
    exact absurd unresolved (reached.not_unresolved_of_rest rest)
  | success =>
    obtain ⟨i, report, heard, success, waiting⟩ := reached.reported_of_success cleared shown hk
    obtain ⟨token, started⟩ := reached.started_of_rest rest heard success
    exact absurd started (waiting token)
  | error => rfl

def createdMeanwhile : List Action :=
  [.start .refresh, .start (.create "a"), .advance 0, .advance 0, .receive, .advance 1,
    .answer 1 (.ok ()), .advance 1, .receive]

theorem progress_is_pending_of_createdMeanwhile :
    ∃ flows, (Flows.withCapacity 1).performAll? createdMeanwhile = some flows ∧
      flows.outbox.channel.isOpen = true ∧
      flows.ClearedIn [.refreshStarted 1, .statusCleared, .projectCreated] ∧
      ∃ i report, (i, report) ∈ ((Flows.withCapacity 1).history createdMeanwhile).heard flows ∧
        report.IsSuccess ∧ ∀ token, (i, .refreshStarted token) ∉
          ((Flows.withCapacity 1).history createdMeanwhile).heard flows := by
  have result : ∃ flows, (Flows.withCapacity 1).performAll? createdMeanwhile = some flows ∧
      flows.outbox.channel.isOpen = true ∧
      flows.ClearedIn [.refreshStarted 1, .statusCleared, .projectCreated] := ⟨_, rfl, rfl, rfl⟩
  obtain ⟨flows, run, listening, cleared⟩ := result
  exact ⟨flows, run, listening, cleared,
    (progress_is_pending run listening cleared).2.1 .created rfl rfl⟩

end ProjectClient

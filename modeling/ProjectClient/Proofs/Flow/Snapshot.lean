import Mathlib.Order.Bounds.Defs
import ProjectClient.Proofs.Flow.Order

/-! The snapshot of a client whose flows overlap. An older answer never takes the place of a newer
one, and once all is quiet the snapshot is an answer that knows every change made. -/
namespace ProjectClient

/-- All flows have come to their end, and every event they sent was received. -/
structure Flows.AtRest (flows : Flows) : Prop where
  ended : ∀ stage ∈ flows.stages, stage = .ended
  empty : flows.outbox.channel.queue = []
  /-- The receiver is there, so no event was lost. -/
  listening : flows.outbox.channel.isOpen

namespace Flows.Reached

variable {capacity : Nat} {story earlier later : History} {flows : Flows} {i : Nat}

theorem ended_of_mem (reached : (withCapacity capacity).Reached story flows) (rest : flows.AtRest)
    {deed : Deed} (h : (i, deed) ∈ story) : flows.stages[i]? = some .ended := by
  obtain ⟨stage, at_i⟩ := reached.stage_of_mem h
  rw [at_i, rest.ended stage (List.mem_of_getElem? at_i)]

theorem received_of_rest (reached : (withCapacity capacity).Reached story flows)
    (rest : flows.AtRest) : story.sends.map (·.2) = flows.received := by
  rw [reached.events.2 rest.listening, rest.empty, List.append_nil]

theorem no_success_behind (reached : (withCapacity capacity).Reached (earlier ++ later) flows)
    (rest : flows.AtRest) {token : Token} (taken : (i, .took token) ∈ earlier)
    (newest : ∀ j other, (j, .took other) ∈ earlier ++ later → other ≤ token) {j : Nat}
    {deed : Deed} (h : (j, deed) ∈ later) : ¬ deed.IsSuccess := by
  -- The flow of the change would have taken a still newer token for its own refresh.
  intro success
  have ended := reached.ended_of_mem rest (List.mem_append_right _ h)
  obtain ⟨middle, last, rfl⟩ := List.append_of_mem h
  have split : earlier ++ (middle ++ (j, deed) :: last) =
      (earlier ++ middle) ++ (j, deed) :: last := (List.append_assoc ..).symm
  rw [split] at reached newest
  obtain ⟨other, behind⟩ := reached.exists_took_behind_success success ended
  have le := newest j other (List.mem_append_right _ (List.mem_cons_of_mem _ behind))
  have whole : (earlier ++ middle) ++ (j, deed) :: last =
      (earlier ++ middle ++ [(j, deed)]) ++ last := by simp
  rw [whole] at reached
  have front : (i, .took token) ∈ earlier ++ middle ++ [(j, deed)] := by simp [taken]
  exact Nat.not_lt_of_le le (reached.token_lt front behind)

theorem passes_behind_result {event : Event} {token : Token}
    (reached : (withCapacity capacity).Reached (earlier ++ (i, .sent event) :: later) flows)
    (resolves : event.resolves? = some token)
    (newest : ∀ j other, (j, .took other) ∈ earlier ++ (i, .sent event) :: later → other ≤ token)
    {j : Nat} {behind : Event} (h : (j, .sent behind) ∈ later) : behind.Passes token := by
  constructor
  · intro opened ho
    cases Event.opens?_eq_some.1 ho
    have member := List.mem_append_right earlier (List.mem_cons_of_mem (i, Deed.sent event) h)
    exact newest j opened (reached.took_of_opened member)
  · intro again
    obtain ⟨middle, last, rfl⟩ := List.append_of_mem h
    have split : earlier ++ (i, .sent event) :: (middle ++ (j, .sent behind) :: last) =
        (earlier ++ (i, .sent event) :: middle) ++ (j, .sent behind) :: last := by simp
    rw [split] at reached
    have before : (i, .sent event) ∈ earlier ++ (i, .sent event) :: middle := by simp
    exact reached.resolved_once again before resolves

theorem latest_at_result {event : Event} {token : Token}
    (reached : (withCapacity capacity).Reached (earlier ++ (i, .sent event) :: later) flows)
    (resolves : event.resolves? = some token)
    (newest : ∀ j other, (j, .took other) ∈ earlier ++ (i, .sent event) :: later → other ≤ token) :
    (({} : State).applyAll ((History.sends earlier).map (·.2))).latestRefresh = some token := by
  obtain ⟨flow, outcome, _, hd⟩ := reached.past_of_resolved resolves
  have opened : (i, .sent (.refreshStarted token)) ∈ earlier := by
    rw [← History.mem_deedsOf]
    simp [hd]
  refine State.latestRefresh_applyAll (by simp [State.Supersedes])
    (List.mem_map.2 ⟨_, History.mem_sends.2 opened, rfl⟩) fun other member => ?_
  obtain ⟨⟨j, e⟩, sent, rfl⟩ := List.mem_map.1 member
  exact newest j other (reached.took_of_opened (List.mem_append_left _ (History.mem_sends.1 sent)))

end Flows.Reached

def State.Shows (state : State) : Outcome (List Project) → Prop
  | .ok projects => state.projects = projects
  | .failed _ => ∃ status, state.status = some status ∧ status.kind = .error
  | .crashed => False

theorem State.shows_applyAll {state : State} {token : Token}
    (latest : state.latestRefresh = some token) {outcome : Outcome (List Project)} {report : Event}
    (told : outcome.report? token = some report) {events : List Event}
    (passes : ∀ event ∈ events,
      event.Passes token ∧ ¬ event.IsSuccess ∧ event ≠ .statusCleared) :
    (state.applyAll (report :: events)).Shows outcome := by
  have step : state.applyAll (report :: events) = (state.apply report).applyAll events := rfl
  have still : (state.apply report).latestRefresh = some token := by
    have resolves := Outcome.resolves?_report told
    rw [latestRefresh_apply (Event.opens?_of_resolves? resolves), latest]
  rw [step]
  cases outcome with
  | ok projects =>
    cases told
    have loaded : (state.apply (.projectsLoaded token projects)).projects = projects :=
      congrArg State.projects (if_pos latest)
    exact (applyAll_of_passes still fun e he => (passes e he).1).1.trans loaded
  | failed error =>
    cases told
    have shown : (state.apply (.refreshFailed token)).status = some .loadFailed :=
      congrArg State.status (if_pos latest)
    exact error_applyAll still ⟨_, shown, rfl⟩ passes
  | crashed => cases told

namespace Flows.Reached

variable {capacity : Nat} {story earlier later : History} {flows : Flows} {i : Nat}

theorem passes_at_rest {report : Event} {token : Token}
    (reached : (withCapacity capacity).Reached (earlier ++ (i, .sent report) :: later) flows)
    (rest : flows.AtRest) (resolves : report.resolves? = some token)
    (newest : ∀ j other, (j, .took other) ∈ earlier ++ (i, .sent report) :: later → other ≤ token)
    {j : Nat} {event : Event} (behind : (j, .sent event) ∈ later) :
    event.Passes token ∧ ¬ event.IsSuccess ∧ event ≠ .statusCleared := by
  have passes := reached.passes_behind_result resolves newest behind
  have kept := reached.sent_ne_statusCleared
    (List.mem_append_right _ (List.mem_cons_of_mem _ behind))
  refine ⟨passes, fun success => ?_, kept⟩
  have taken : (i, .took token) ∈ earlier ++ [(i, .sent report)] := by
    obtain ⟨_, _, _, before⟩ := reached.past_of_resolved resolves
    exact History.mem_append_of_deedsOf (by simp [before])
  rw [List.append_cons] at reached newest
  exact reached.no_success_behind rest taken newest behind (.inr ⟨_, rfl, success⟩)

theorem shows_newest (reached : (withCapacity capacity).Reached story flows)
    (rest : flows.AtRest) {token : Token} {outcome : Outcome (List Project)}
    (newest : ∀ j other, (j, .took other) ∈ story → other ≤ token)
    (answer : (i, .listed token outcome) ∈ story) :
    (({} : State).applyAll flows.received).Shows outcome := by
  have ended := reached.ended_of_mem rest answer
  obtain ⟨flow, own, report, told, hd⟩ :=
    reached.life_of_ended (reached.took_of_listed answer) ended
  have same : outcome = own := by
    have listed := History.mem_deedsOf.2 answer
    rw [hd] at listed
    simpa [Flow.listed_notMem_lead] using listed
  subst same
  have sent : (i, .sent report) ∈ story := by
    rw [← History.mem_deedsOf, hd]
    simp
  have resolves := Outcome.resolves?_report told
  rw [← reached.received_of_rest rest]
  obtain ⟨earlier, later, rfl⟩ := List.append_of_mem sent
  have order : (History.sends (earlier ++ (i, .sent report) :: later)).map (·.2) =
      (History.sends earlier).map (·.2) ++ report :: (History.sends later).map (·.2) := by
    simp [History.sends, Deed.event?]
  -- Up to the result its refresh is the newest, and what comes behind it hides nothing.
  rw [order, State.applyAll_append]
  refine State.shows_applyAll (reached.latest_at_result resolves newest) told
    fun event member => ?_
  obtain ⟨⟨j, e⟩, he, rfl⟩ := List.mem_map.1 member
  exact reached.passes_at_rest rest resolves newest (History.mem_sends.1 he)

/-- At rest, the newest list call was made when no change was still to be answered. -/
theorem asked_behind_successes (reached : (withCapacity capacity).Reached story flows)
    (rest : flows.AtRest) {token : Token} (taken : (i, .took token) ∈ story)
    (newest : ∀ j other, (j, .took other) ∈ story → other ≤ token) :
    ∃ earlier later, story = earlier ++ (i, .asked token) :: later ∧
      ∀ j mutation, (j, .answered mutation (.ok ())) ∉ later := by
  obtain ⟨flow, outcome, report, _, hd⟩ := reached.life_of_ended taken
    (reached.ended_of_mem rest taken)
  have asked : (i, .asked token) ∈ story := by
    rw [← History.mem_deedsOf, hd]
    simp
  obtain ⟨earlier, later, rfl⟩ := List.append_of_mem asked
  refine ⟨earlier, later, rfl, fun j mutation answer => ?_⟩
  have before : (i, .took token) ∈ earlier ++ [(i, .asked token)] := by
    obtain ⟨_, past⟩ := reached.past_of_asked
    exact History.mem_append_of_deedsOf (by simp [past])
  rw [List.append_cons] at reached newest
  exact reached.no_success_behind rest before newest answer (.inl ⟨mutation, rfl⟩)

end Flows.Reached

/-- Read your writes: at rest the client shows the answer to the list call of its newest refresh,
and that call was made after the answer to every change that the server accepted. -/
theorem newest_answer_at_rest {capacity : Nat} {actions : List Action} {flows : Flows}
    (run : (Flows.withCapacity capacity).performAll? actions = some flows) (rest : flows.AtRest)
    {token : Token} (newest : IsGreatest
      { taken | ∃ i, (i, .took taken) ∈ (Flows.withCapacity capacity).history actions } token) :
    (∃ i outcome, (i, .listed token outcome) ∈ (Flows.withCapacity capacity).history actions) ∧
    ∀ i outcome, (i, .listed token outcome) ∈ (Flows.withCapacity capacity).history actions →
      (({} : State).applyAll flows.received).Shows outcome ∧
      ∃ earlier later,
        (Flows.withCapacity capacity).history actions = earlier ++ (i, .asked token) :: later ∧
        ∀ j mutation, (j, .answered mutation (.ok ())) ∉ later := by
  have reached := Flows.reached_of_performAll? run
  generalize (Flows.withCapacity capacity).history actions = story at reached newest ⊢
  have greatest : ∀ j other, (j, .took other) ∈ story → other ≤ token :=
    fun j other taken => newest.2 ⟨j, taken⟩
  constructor
  · obtain ⟨i, taken⟩ := newest.1
    obtain ⟨flow, outcome, report, _, hd⟩ := reached.life_of_ended taken
      (reached.ended_of_mem rest taken)
    refine ⟨i, outcome, History.mem_deedsOf.1 ?_⟩
    simp [hd]
  · intro i outcome answer
    have taken := reached.took_of_listed answer
    exact ⟨reached.shows_newest rest greatest answer,
      reached.asked_behind_successes rest taken greatest⟩

def lateStart : List Action :=
  [.start .refresh, .start (.create "a"), .advance 0, .advance 1, .answer 1 (.ok ()), .advance 1,
    .receive, .advance 1, .advance 1, .receive, .advance 0, .receive, .advance 1, .advance 0,
    .answerList 1 (.ok [⟨"1", "a", none, []⟩]), .answerList 0 (.ok []), .advance 1, .receive,
    .advance 0, .receive]

theorem newest_answer_of_lateStart :
    ∃ flows, (Flows.withCapacity 1).performAll? lateStart = some flows ∧ flows.AtRest ∧
      IsGreatest { taken | ∃ i, (i, .took taken) ∈ (Flows.withCapacity 1).history lateStart } 2 ∧
      (({} : State).applyAll flows.received).projects = [⟨"1", "a", none, []⟩] := by
  have rest : ∃ flows, (Flows.withCapacity 1).performAll? lateStart = some flows ∧ flows.AtRest :=
    ⟨_, rfl, by decide, rfl, rfl⟩
  obtain ⟨flows, run, rest⟩ := rest
  have newest : IsGreatest
      { taken | ∃ i, (i, .took taken) ∈ (Flows.withCapacity 1).history lateStart } 2 := by
    refine ⟨⟨1, by decide⟩, ?_⟩
    rintro taken ⟨i, h⟩
    have tokens := History.mem_tokens h
    have all : ∀ t ∈ ((Flows.withCapacity 1).history lateStart).tokens, t ≤ 2 := by decide
    exact all taken tokens
  have answer :=
    (newest_answer_at_rest run rest newest).2 1 (.ok [⟨"1", "a", none, []⟩]) (by decide)
  exact ⟨flows, run, rest, newest, answer.1⟩

end ProjectClient

import ProjectClient.Proofs.Flow.Order

/-! Stale answers. Whatever the flows do, also if calls crash or the receiver goes away, an answer
counts only while its refresh is the newest to have started. -/
namespace ProjectClient

namespace State

def resolved (state : State) : List Event → List Token
  | [] => []
  | event :: events =>
    (if state.Heeds event then event.resolves?.toList else []) ++
      (state.apply event).resolved events

theorem latestRefresh_mono {state : State} {latest : Token}
    (h : state.latestRefresh = some latest) (event : Event) :
    ∃ next, (state.apply event).latestRefresh = some next ∧ latest ≤ next := by
  cases ho : event.opens? with
  | none => exact ⟨latest, (latestRefresh_apply ho).trans h, Nat.le_refl _⟩
  | some token =>
    cases Event.opens?_eq_some.1 ho
    by_cases newer : state.Supersedes token
    · exact ⟨token, latestRefresh_apply_of_opens newer, Nat.le_of_lt (newer latest h)⟩
    · have same : state.apply (.refreshStarted token) = state := apply_of_not_heeds newer
      exact ⟨latest, by rw [same, h], Nat.le_refl _⟩

theorem le_of_mem_resolved {state : State} {events : List Event} {token : Token}
    (h : token ∈ state.resolved events) : ∀ latest ∈ state.latestRefresh, latest ≤ token := by
  induction events generalizing state with
  | nil => cases h
  | cons event events ih =>
    intro latest hl
    rcases List.mem_append.1 h with now | later
    · split at now
      · rename_i heeds
        rw [heeds_of_resolves? (Option.mem_toList.1 now), hl] at heeds
        exact Nat.le_of_eq (Option.some.inj heeds)
      · cases now
    · obtain ⟨next, hn, le⟩ := latestRefresh_mono hl event
      exact Nat.le_trans le (ih later next hn)

theorem mem_of_mem_resolved {state : State} {events : List Event} {token : Token}
    (h : token ∈ state.resolved events) : token ∈ events.filterMap Event.resolves? := by
  induction events generalizing state with
  | nil => cases h
  | cons event events ih =>
    rw [List.mem_filterMap]
    rcases List.mem_append.1 h with now | later
    · split at now
      · exact ⟨event, List.mem_cons_self, Option.mem_toList.1 now⟩
      · cases now
    · obtain ⟨other, member, resolves⟩ := List.mem_filterMap.1 (ih later)
      exact ⟨other, List.mem_cons_of_mem _ member, resolves⟩

theorem resolved_pairwise {state : State} {events : List Event}
    (once : (events.filterMap Event.resolves?).Nodup) :
    (state.resolved events).Pairwise (· < ·) := by
  induction events generalizing state with
  | nil => exact .nil
  | cons event events ih =>
    have rest : (events.filterMap Event.resolves?).Nodup :=
      once.sublist ((List.sublist_cons_self event events).filterMap _)
    refine List.pairwise_append.2 ⟨?_, ih rest, ?_⟩
    · split
      · cases event.resolves? <;> simp
      · exact .nil
    · -- What counts later is no older, and no refresh has a second result.
      intro first now second later
      split at now
      · rename_i heeds
        have resolves := Option.mem_toList.1 now
        have latest := (heeds_of_resolves? resolves).1 heeds
        have still : (state.apply event).latestRefresh = some first := by
          rw [latestRefresh_apply (Event.opens?_of_resolves? resolves), latest]
        have le := le_of_mem_resolved later first still
        have ne : first ≠ second := by
          rintro rfl
          rw [List.filterMap_cons_some resolves, List.nodup_cons] at once
          exact once.1 (mem_of_mem_resolved later)
        exact Nat.lt_of_le_of_ne le ne
      · cases now

theorem apply_of_older {state : State} {events : List Event} {token older : Token}
    (started : .refreshStarted token ∈ events) (lt : older < token) {event : Event}
    (resolves : event.resolves? = some older) :
    (state.applyAll events).apply event = state.applyAll events := by
  refine apply_of_not_heeds fun heeds => ?_
  have latest := (heeds_of_resolves? resolves).1 heeds
  have newer := (latestRefresh_eq_some_iff.1 latest token).2 lt
  exact Nat.lt_irrefl _ (((supersedes_applyAll state events token).1 newer).2 token started)

end State

namespace Flows.Reached

variable {capacity : Nat} {story : History} {flows : Flows}

theorem received_prefix (reached : (withCapacity capacity).Reached story flows) :
    flows.received <+: story.sends.map (·.2) :=
  (List.prefix_append _ _).trans reached.events.1

theorem received_once (reached : (withCapacity capacity).Reached story flows) :
    (flows.received.filterMap Event.resolves?).Nodup := by
  have whole : (story.sends.map (·.2)).filterMap Event.resolves? =
      story.sends.filterMap (·.2.resolves?) := List.filterMap_map
  have nodup := reached.resolved_nodup
  rw [← whole] at nodup
  exact nodup.sublist (reached.received_prefix.sublist.filterMap _)

theorem exists_sent (reached : (withCapacity capacity).Reached story flows) {event : Event}
    (h : event ∈ flows.received) : ∃ i, (i, .sent event) ∈ story := by
  obtain ⟨⟨i, e⟩, sent, rfl⟩ := List.mem_map.1 (reached.received_prefix.subset h)
  exact ⟨i, History.mem_sends.1 sent⟩

theorem listed_of_loaded (reached : (withCapacity capacity).Reached story flows) {token : Token}
    {projects : List Project} (h : .projectsLoaded token projects ∈ flows.received) :
    ∃ i, (i, .listed token (.ok projects)) ∈ story := by
  obtain ⟨i, sent⟩ := reached.exists_sent h
  obtain ⟨outcome, told, answer⟩ := reached.listed_of_resolved rfl sent
  cases outcome with
  | ok found =>
    cases told
    exact ⟨i, answer⟩
  | failed | crashed => cases told

end Flows.Reached

/-- No stale overwrite: at any time the snapshot is the one at the start or the answer to one list
call, the answers that count belong to ever newer refreshes, and once a refresh has started no
answer to an older one changes anything. The state at the start may be any. -/
theorem stale_answers_ignored {capacity : Nat} {actions : List Action} {flows : Flows}
    (run : (Flows.withCapacity capacity).performAll? actions = some flows) (state : State) :
    (∀ seen, seen <+: flows.received →
      (state.applyAll seen).projects = state.projects ∨
      ∃ i token, (i, .listed token (.ok (state.applyAll seen).projects)) ∈
        (Flows.withCapacity capacity).history actions) ∧
    (state.resolved flows.received).Pairwise (· < ·) ∧
    ∀ before event after, flows.received = before ++ event :: after →
      ∀ token older, .refreshStarted token ∈ before → event.resolves? = some older →
        older < token → (state.applyAll before).apply event = state.applyAll before := by
  have reached := Flows.reached_of_performAll? run
  refine ⟨fun seen first => ?_, State.resolved_pairwise reached.received_once, ?_⟩
  · rcases state.projects_applyAll seen with same | ⟨token, loaded⟩
    · exact .inl same
    · obtain ⟨i, answer⟩ := reached.listed_of_loaded (first.subset loaded)
      exact .inr ⟨i, token, answer⟩
  · intro before event after _ token older started resolves lt
    exact State.apply_of_older started lt resolves

def crossedAnswers : List Action :=
  [.start .refresh, .start .refresh, .start .refresh, .advance 0, .advance 0, .advance 1,
    .advance 1, .receive, .receive, .advance 0, .advance 1,
    .answerList 1 (.ok [⟨"new", "b", none, []⟩]), .advance 1, .receive,
    .answerList 0 (.ok [⟨"old", "a", none, []⟩]), .advance 0, .receive,
    .advance 2, .advance 2, .receive, .advance 2, .answerList 2 .crashed]

theorem stale_answers_ignored_of_crossedAnswers :
    ∃ flows, (Flows.withCapacity 2).performAll? crossedAnswers = some flows ∧
      (({} : State).applyAll (flows.received.take 3)).apply
        (.projectsLoaded 1 [⟨"old", "a", none, []⟩]) =
          ({} : State).applyAll (flows.received.take 3) := by
  have result : ∃ flows, (Flows.withCapacity 2).performAll? crossedAnswers = some flows ∧
      flows.received = [.refreshStarted 1, .refreshStarted 2,
        .projectsLoaded 2 [⟨"new", "b", none, []⟩], .projectsLoaded 1 [⟨"old", "a", none, []⟩],
        .refreshStarted 3] := ⟨_, rfl, rfl⟩
  obtain ⟨flows, run, received⟩ := result
  refine ⟨flows, run, ?_⟩
  rw [received]
  exact (stale_answers_ignored run {}).2.2 _ _ [.refreshStarted 3] received 2 1 (by decide) rfl
    (by decide)

end ProjectClient

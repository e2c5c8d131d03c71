import Mathlib.Data.List.Induction
import ProjectClient.Proofs.State.Effect

/-! What is left of a history as a whole. The state behind any events is told from them without
applying one: the newest refresh by the greatest token, and the rest by the last events that had an
effect. The tokens may be any, also in an order that no client would report. -/
namespace ProjectClient

namespace Event

def loaded? : Event → Option (List Project)
  | projectsLoaded _ projects => some projects
  | _ => none

/-- The status that an event writes. To clear the line is not to write one. -/
def written? (event : Event) : Option Status :=
  event.line?.join

def request? : Event → Option (Option PendingDelete)
  | deleteRequested target => some (some target)
  | deleteDeclined => some none
  | deleteConfirmed => some none
  | _ => none

/-- The event writes or clears the status line behind a history with this newest refresh. -/
def IsEffective (newest : Option Token) : Event → Prop
  | refreshStarted token => ∀ latest ∈ newest, latest < token
  | projectsLoaded token _ => newest = some token
  | refreshFailed token => newest = some token
  | projectCreated | createFailed | projectDeleted | deleteFailed => True
  | statusCleared | userError _ => True
  | createDraftSubmitted | deleteRequested _ | deleteDeclined | deleteConfirmed => False

theorem isEffective_iff {state : State} {event : Event} :
    event.IsEffective state.latestRefresh ↔ state.Heeds event ∧ event.line? ≠ none := by
  cases event <;> simp [IsEffective, State.Heeds, State.Supersedes, line?]

theorem IsEffective.only_line {newest : Option Token} {event : Event}
    (effective : event.IsEffective newest) :
    (∃ line, event.line? = some line) ∧ event.request? = none ∧ event ≠ .createDraftSubmitted := by
  cases event with
  | createDraftSubmitted | deleteRequested | deleteDeclined | deleteConfirmed => cases effective
  | _ => exact ⟨⟨_, rfl⟩, rfl, nofun⟩

instance (newest : Option Token) (event : Event) : Decidable (event.IsEffective newest) :=
  decidable_of_iff (({ latestRefresh := newest } : State).Heeds event ∧ event.line? ≠ none)
    isEffective_iff.symm

end Event

namespace State

/-! ## The newest refresh -/

def seen (state : State) (events : List Event) : List Token :=
  state.latestRefresh.toList ++ events.filterMap Event.opens?

def newest (state : State) (events : List Event) : Option Token :=
  (state.seen events).max?

theorem mem_seen {state : State} {events : List Event} {token : Token} :
    token ∈ state.seen events ↔
      state.latestRefresh = some token ∨ .refreshStarted token ∈ events := by
  simp [seen, List.mem_append, List.mem_filterMap, Event.opens?_eq_some]

theorem supersedes_applyAll_iff {state : State} {events : List Event} {token : Token} :
    (state.applyAll events).Supersedes token ↔ ∀ old ∈ state.seen events, old < token := by
  rw [supersedes_applyAll]
  simp only [mem_seen, or_imp, forall_and]
  rfl

theorem latestRefresh_applyAll_eq (state : State) (events : List Event) :
    (state.applyAll events).latestRefresh = state.newest events := by
  refine Option.ext fun token => ?_
  rw [latestRefresh_eq_some_iff, newest, List.max?_eq_some_iff]
  simp only [supersedes_applyAll_iff]
  constructor
  · intro above
    have below : ∀ old ∈ state.seen events, old ≤ token :=
      fun old h => Nat.le_of_lt_succ ((above (token + 1)).2 (Nat.lt_succ_self token) old h)
    refine ⟨Classical.byContradiction fun unseen => ?_, below⟩
    have less : ∀ old ∈ state.seen events, old < token := fun old h =>
      Nat.lt_of_le_of_ne (below old h) fun same => unseen (same ▸ h)
    exact Nat.lt_irrefl _ ((above token).1 less)
  · rintro ⟨member, below⟩ newer
    exact ⟨fun above => above token member,
      fun above old h => Nat.lt_of_le_of_lt (below old h) above⟩

theorem newest_mono (state : State) (events : List Event) {i j : Nat} (le : i ≤ j) :
    state.newest (events.take i) ≤ state.newest (events.take j) := by
  cases first : state.newest (events.take i) with
  | none => exact Option.none_le
  | some early =>
    have known := (List.max?_eq_some_iff.1 first).1
    have member : early ∈ state.seen (events.take j) := by
      rw [mem_seen] at known ⊢
      exact known.imp_right fun opened => (List.take_subset_take_left events le) opened
    cases second : state.newest (events.take j) with
    | none =>
      rw [newest, List.max?_eq_none_iff] at second
      rw [second] at member
      cases member
    | some late => exact (List.max?_eq_some_iff.1 second).2 early member

theorem newest_congr {state : State} {events others : List Event}
    (same : ∀ token, .refreshStarted token ∈ others ↔ .refreshStarted token ∈ events) :
    state.newest others = state.newest events := by
  have seen (token : Token) : token ∈ state.seen others ↔ token ∈ state.seen events := by
    rw [mem_seen, mem_seen, same]
  refine Option.ext fun token => ?_
  simp only [newest, List.max?_eq_some_iff, seen]

/-! ## Events with an effect -/

def effective (state : State) (events : List Event) : List Event :=
  (events.zipIdx.filter fun (event, i) =>
    event.IsEffective (state.newest (events.take i))).map Prod.fst

theorem effective_concat (state : State) (events : List Event) (event : Event) :
    state.effective (events ++ [event]) =
      state.effective events ++
        if event.IsEffective (state.newest events) then [event] else [] := by
  have before : events.zipIdx.filter (fun (event', i) =>
        event'.IsEffective (state.newest ((events ++ [event]).take i))) =
      events.zipIdx.filter fun (event', i) =>
        event'.IsEffective (state.newest (events.take i)) := by
    refine List.filter_congr fun pair member => ?_
    have inside : pair.2 ≤ events.length :=
      Nat.le_of_lt (List.snd_lt_of_mem_zipIdx member)
    simp only [List.take_append_of_le_length inside]
  have last : ([event].zipIdx (0 + events.length)).filter (fun (event', i) =>
        event'.IsEffective (state.newest ((events ++ [event]).take i))) =
      if event.IsEffective (state.newest events) then [(event, events.length)] else [] := by
    simp [List.filter_cons]
  simp only [effective, List.zipIdx_append, List.filter_append, List.map_append, before, last]
  split <;> rfl

theorem exists_line_of_effective {state : State} {events : List Event} {event : Event}
    (member : event ∈ state.effective events) : ∃ line, event.line? = some line := by
  obtain ⟨⟨event, i⟩, inside, rfl⟩ := List.mem_map.1 member
  have effective := of_decide_eq_true (List.mem_filter.1 inside).2
  exact effective.only_line.1

theorem apply_of_effective {state : State} {event : Event}
    (effective : event.IsEffective state.latestRefresh) :
    state.apply event = { state with
      projects := event.loaded?.getD state.projects
      status := event.line?.getD state.status
      latestRefresh := event.opens?.or state.latestRefresh
      statusRevision :=
        if event.written?.isSome then state.statusRevision + 1 else state.statusRevision } := by
  cases event with
  | refreshStarted | projectsLoaded | refreshFailed => exact if_pos effective
  | createDraftSubmitted | deleteRequested | deleteDeclined | deleteConfirmed => cases effective
  | _ => rfl

theorem apply_of_not_effective {state : State} {event : Event}
    (idle : ¬ event.IsEffective state.latestRefresh) :
    state.apply event = { state with
      pendingDelete := event.request?.getD state.pendingDelete
      createDraft := if event = .createDraftSubmitted then "" else state.createDraft } := by
  cases event with
  | refreshStarted | projectsLoaded | refreshFailed => exact if_neg idle
  | createDraftSubmitted | deleteRequested | deleteDeclined | deleteConfirmed => rfl
  | _ => exact absurd trivial idle

/-! ## Histories -/

def told (state : State) (events : List Event) : State where
  projects := ((state.effective events).filterMap Event.loaded?).getLast?.getD state.projects
  status := ((state.effective events).getLast?.bind Event.line?).getD state.status
  pendingDelete := (events.filterMap Event.request?).getLast?.getD state.pendingDelete
  createDraft := if .createDraftSubmitted ∈ events then "" else state.createDraft
  latestRefresh := state.newest events
  statusRevision := state.statusRevision +
    UInt64.ofNat ((state.effective events).filterMap Event.written?).length

theorem applyAll_eq_told (state : State) (events : List Event) :
    state.applyAll events = state.told events := by
  induction events using List.reverseRecOn with
  | nil =>
    have start : state.newest [] = state.latestRefresh := (latestRefresh_applyAll_eq state []).symm
    simp [told, effective, start, applyAll]
  | append_singleton events event ih =>
    have known : (state.told events).latestRefresh = state.newest events := rfl
    have step : state.applyAll (events ++ [event]) = (state.told events).apply event := by
      rw [applyAll_append, ih]
      rfl
    have latest := latestRefresh_applyAll_eq state (events ++ [event])
    rw [step] at latest ⊢
    by_cases effective : event.IsEffective (state.newest events)
    · obtain ⟨⟨line, hasLine⟩, noRequest, noDraft⟩ := effective.only_line
      rw [apply_of_effective (known ▸ effective)] at latest ⊢
      cases written : event.written? <;>
        simp [told, effective_concat, effective, ← latest, hasLine, noRequest, Ne.symm noDraft,
          written, UInt64.ofNat_add, UInt64.add_assoc]
    · rw [apply_of_not_effective (known ▸ effective)] at latest ⊢
      by_cases draft : .createDraftSubmitted = event
      · simp [told, effective_concat, effective, ← latest, draft]
      · simp [told, effective_concat, effective, ← latest, draft, Ne.symm draft]

/-- The state behind any history in closed form. Its newest refresh is the greatest that was seen,
so it never goes back and does not depend on the order of the starts. The snapshot is the last that
was loaded by the refresh which was then the newest, the status line that of the last event with an
effect, and each event that wrote a status counts once. -/
theorem state_behind_history (state : State) (events : List Event) :
    state.applyAll events = {
      projects := ((state.effective events).filterMap Event.loaded?).getLast?.getD state.projects
      status := ((state.effective events).getLast?.bind Event.line?).getD state.status
      pendingDelete := (events.filterMap Event.request?).getLast?.getD state.pendingDelete
      createDraft := if .createDraftSubmitted ∈ events then "" else state.createDraft
      latestRefresh := state.newest events
      statusRevision := state.statusRevision +
        UInt64.ofNat ((state.effective events).filterMap Event.written?).length } ∧
    (∀ i j, i ≤ j → (state.applyAll (events.take i)).latestRefresh ≤
      (state.applyAll (events.take j)).latestRefresh) ∧
    ∀ others, (∀ token, .refreshStarted token ∈ others ↔ .refreshStarted token ∈ events) →
      (state.applyAll others).latestRefresh = (state.applyAll events).latestRefresh := by
  refine ⟨applyAll_eq_told state events, fun i j le => ?_, fun others same => ?_⟩
  · rw [latestRefresh_applyAll_eq, latestRefresh_applyAll_eq]
    exact newest_mono state events le
  · rw [latestRefresh_applyAll_eq, latestRefresh_applyAll_eq, newest_congr same]

/-- The state knows the refresh 5 from before. A start of an older one does not count, a result of 5
does until 7 starts, and what comes of 5 and 9 behind that is dropped. The count comes round. -/
theorem state_behind_history_of_known :
    let state : State := { latestRefresh := some 5, statusRevision := 0xffffffffffffffff }
    let events : List Event := [
      .refreshStarted 3, .projectsLoaded 5 [{ id := "a", name := "A" }], .refreshStarted 7,
      .refreshFailed 5, .projectsLoaded 9 [], .createFailed, .createFailed]
    state.applyAll events = {
      projects := [{ id := "a", name := "A" }]
      status := some .createFailed
      latestRefresh := some 7
      statusRevision := 2 } ∧
    (state.applyAll (events.take 2)).latestRefresh ≤
      (state.applyAll (events.take 3)).latestRefresh ∧
    (state.applyAll [.refreshStarted 7, .refreshStarted 3]).latestRefresh =
      (state.applyAll events).latestRefresh := by
  intro state events
  obtain ⟨closed, mono, order⟩ := state_behind_history state events
  refine ⟨closed.trans (by decide +kernel), mono 2 3 (by decide), order _ fun token => ?_⟩
  simp [events, or_comm]

end State

end ProjectClient

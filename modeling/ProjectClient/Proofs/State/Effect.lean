import ProjectClient.Event

/-! Which events count. A start counts if it opens a newer refresh, a result if it belongs to the
newest one, and every other event always. An event that does not count leaves the state alone, so
the status line is that of the last event which counted and has one. -/
namespace ProjectClient

namespace Event

def opens? : Event → Option Token
  | refreshStarted token => some token
  | _ => none

def resolves? : Event → Option Token
  | projectsLoaded token _ => some token
  | refreshFailed token => some token
  | _ => none

def IsSuccess (event : Event) : Prop :=
  event = projectCreated ∨ event = projectDeleted

instance (event : Event) : Decidable event.IsSuccess :=
  inferInstanceAs (Decidable (_ ∨ _))

/-- The event neither opens a newer refresh than this one nor resolves it. -/
def Passes (token : Token) (event : Event) : Prop :=
  (∀ opened ∈ event.opens?, opened ≤ token) ∧ event.resolves? ≠ some token

/-- The status line that an event leaves, if it has one: a status, or an empty line. -/
def line? : Event → Option (Option Status)
  | refreshStarted _ => some (some .loading)
  | projectsLoaded .. => some none
  | refreshFailed _ => some (some .loadFailed)
  | projectCreated => some (some .created)
  | createFailed => some (some .createFailed)
  | projectDeleted => some (some .deleted)
  | deleteFailed => some (some .deleteFailed)
  | statusCleared => some none
  | userError text => some (some ⟨.error, text⟩)
  | createDraftSubmitted => none
  | deleteRequested _ => none
  | deleteDeclined => none
  | deleteConfirmed => none

theorem opens?_eq_some {event : Event} {token : Token} :
    event.opens? = some token ↔ event = .refreshStarted token := by
  cases event <;> simp [opens?]

theorem opens?_of_resolves? {event : Event} {token : Token} (h : event.resolves? = some token) :
    event.opens? = none := by
  cases event <;> simp [resolves?, opens?] at h ⊢

theorem line?_of_resolves? {event : Event} {token : Token} (h : event.resolves? = some token) :
    event.line? ≠ none := by
  cases event <;> simp [resolves?, line?] at h ⊢

theorem opens?_of_info {event : Event} {status : Status} (h : event.line? = some (some status))
    (info : status.kind = .info) : ∃ token, event = .refreshStarted token := by
  cases event with
  | refreshStarted token => exact ⟨token, rfl⟩
  | refreshFailed | projectCreated | createFailed | projectDeleted | deleteFailed | userError =>
    cases h
    cases info
  | _ => cases h

theorem isSuccess_of_success {event : Event} {status : Status}
    (h : event.line? = some (some status)) (success : status.kind = .success) :
    event.IsSuccess := by
  cases event with
  | projectCreated => exact .inl rfl
  | projectDeleted => exact .inr rfl
  | refreshStarted | refreshFailed | createFailed | deleteFailed | userError =>
    cases h
    cases success
  | _ => cases h

end Event

namespace State

def Heeds (state : State) : Event → Prop
  | .refreshStarted token => state.Supersedes token
  | .projectsLoaded token _ => state.latestRefresh = some token
  | .refreshFailed token => state.latestRefresh = some token
  | _ => True

instance (state : State) (event : Event) : Decidable (state.Heeds event) :=
  match event with
  | .refreshStarted token => inferInstanceAs (Decidable (state.Supersedes token))
  | .projectsLoaded token _ => inferInstanceAs (Decidable (state.latestRefresh = some token))
  | .refreshFailed token => inferInstanceAs (Decidable (state.latestRefresh = some token))
  | .createDraftSubmitted | .projectCreated | .createFailed | .deleteRequested _ | .deleteDeclined
  | .deleteConfirmed | .projectDeleted | .deleteFailed | .statusCleared | .userError _ =>
    isTrue trivial

theorem apply_of_not_heeds {state : State} {event : Event} (h : ¬ state.Heeds event) :
    state.apply event = state := by
  cases event with
  | refreshStarted | projectsLoaded | refreshFailed => exact if_neg h
  | _ => exact absurd trivial h

theorem status_apply_of_heeds {state : State} {event : Event} (h : state.Heeds event) :
    (state.apply event).status = event.line?.getD state.status := by
  cases event with
  | refreshStarted | projectsLoaded | refreshFailed => exact congrArg State.status (if_pos h)
  | _ => rfl

theorem apply_of_no_line {state : State} {event : Event} (h : event.line? = none) :
    (state.apply event).status = state.status ∧
    (state.apply event).projects = state.projects ∧
    (state.apply event).latestRefresh = state.latestRefresh := by
  cases event with
  | createDraftSubmitted | deleteRequested | deleteDeclined | deleteConfirmed =>
    exact ⟨rfl, rfl, rfl⟩
  | _ => cases h

theorem heeds_of_resolves? {state : State} {event : Event} {token : Token}
    (h : event.resolves? = some token) : state.Heeds event ↔ state.latestRefresh = some token := by
  cases event with
  | projectsLoaded | refreshFailed =>
    cases h
    exact Iff.rfl
  | _ => cases h

theorem applyAll_append (state : State) (first second : List Event) :
    state.applyAll (first ++ second) = (state.applyAll first).applyAll second :=
  List.foldl_append

/-! ## The newest refresh -/

theorem latestRefresh_apply_of_opens {state : State} {token : Token}
    (h : state.Supersedes token) :
    (state.apply (.refreshStarted token)).latestRefresh = some token := by
  rw [apply, if_pos h]
  rfl

theorem latestRefresh_apply {state : State} {event : Event} (h : event.opens? = none) :
    (state.apply event).latestRefresh = state.latestRefresh := by
  cases event with
  | refreshStarted => cases h
  | projectsLoaded | refreshFailed =>
    rw [apply]
    split <;> rfl
  | _ => rfl

theorem supersedes_apply (state : State) (event : Event) (token : Token) :
    (state.apply event).Supersedes token ↔
      state.Supersedes token ∧ ∀ opened ∈ event.opens?, opened < token := by
  cases ho : event.opens? with
  | none => simp [Supersedes, latestRefresh_apply ho]
  | some opened =>
    cases Event.opens?_eq_some.1 ho
    by_cases newer : state.Supersedes opened
    · have latest := latestRefresh_apply_of_opens newer
      constructor
      · intro h
        have below : opened < token := h opened latest
        exact ⟨fun l hl => Nat.lt_trans (newer l hl) below, fun _ ho => by cases ho; exact below⟩
      · intro h l hl
        cases latest.symm.trans hl
        exact h.2 _ rfl
    · -- A start that does not count has a token that some newer one has already passed.
      have same : state.apply (.refreshStarted opened) = state := apply_of_not_heeds newer
      rw [same]
      constructor
      · intro h
        refine ⟨h, fun _ ho => ?_⟩
        cases ho
        obtain ⟨l, hl, le⟩ : ∃ l, state.latestRefresh = some l ∧ opened ≤ l := by
          simpa [Supersedes] using newer
        exact Nat.lt_of_le_of_lt le (h l hl)
      · exact And.left

theorem supersedes_applyAll (state : State) (events : List Event) (token : Token) :
    (state.applyAll events).Supersedes token ↔
      state.Supersedes token ∧ ∀ opened, .refreshStarted opened ∈ events → opened < token := by
  induction events generalizing state with
  | nil => simp [applyAll]
  | cons event events ih =>
    have step : state.applyAll (event :: events) = (state.apply event).applyAll events := rfl
    rw [step, ih, supersedes_apply, and_assoc]
    refine and_congr_right fun _ => ?_
    simp only [Option.mem_def, Event.opens?_eq_some, List.mem_cons]
    constructor
    · rintro ⟨head, tail⟩ opened (rfl | h)
      · exact head opened rfl
      · exact tail opened h
    · intro h
      exact ⟨fun opened ho => h opened (.inl ho.symm), fun opened ho => h opened (.inr ho)⟩

theorem latestRefresh_eq_some_iff {state : State} {token : Token} :
    state.latestRefresh = some token ↔ ∀ newer, state.Supersedes newer ↔ token < newer := by
  constructor
  · intro h newer
    simp [Supersedes, h]
  · intro h
    cases hl : state.latestRefresh with
    | none =>
      have above := (h token).1 (by simp [Supersedes, hl])
      exact absurd above (Nat.lt_irrefl _)
    | some latest =>
      have same : ∀ newer, latest < newer ↔ token < newer := by
        intro newer
        rw [← h newer]
        simp [Supersedes, hl]
      have le : latest ≤ token := Nat.le_of_not_lt fun h => Nat.lt_irrefl _ ((same latest).2 h)
      have ge : token ≤ latest := Nat.le_of_not_lt fun h => Nat.lt_irrefl _ ((same token).1 h)
      rw [Nat.le_antisymm le ge]

theorem latestRefresh_applyAll {state : State} {events : List Event} {token : Token}
    (fresh : state.Supersedes token) (opened : .refreshStarted token ∈ events)
    (greatest : ∀ other, .refreshStarted other ∈ events → other ≤ token) :
    (state.applyAll events).latestRefresh = some token := by
  rw [latestRefresh_eq_some_iff]
  intro newer
  rw [supersedes_applyAll]
  constructor
  · intro h
    exact h.2 token opened
  · intro h
    refine ⟨fun l hl => Nat.lt_trans (fresh l hl) h, fun other ho => ?_⟩
    exact Nat.lt_of_le_of_lt (greatest other ho) h

/-! ## The last writer -/

def Quiet (state : State) : List Event → Prop
  | [] => True
  | event :: events => (state.Heeds event → event.line? = none) ∧ (state.apply event).Quiet events

theorem apply_of_quiet {state : State} {event : Event}
    (h : state.Heeds event → event.line? = none) :
    (state.apply event).status = state.status ∧
    (state.apply event).projects = state.projects ∧
    (state.apply event).latestRefresh = state.latestRefresh := by
  by_cases heeds : state.Heeds event
  · exact apply_of_no_line (h heeds)
  · rw [apply_of_not_heeds heeds]
    exact ⟨rfl, rfl, rfl⟩

theorem applyAll_of_quiet {state : State} {events : List Event} (quiet : state.Quiet events) :
    (state.applyAll events).status = state.status ∧
    (state.applyAll events).projects = state.projects ∧
    (state.applyAll events).latestRefresh = state.latestRefresh := by
  induction events generalizing state with
  | nil => exact ⟨rfl, rfl, rfl⟩
  | cons event events ih =>
    obtain ⟨status, projects, latest⟩ := apply_of_quiet quiet.1
    have rest := ih quiet.2
    rw [status, projects, latest] at rest
    exact rest

theorem quiet_append {state : State} {first second : List Event} :
    state.Quiet (first ++ second) ↔ state.Quiet first ∧ (state.applyAll first).Quiet second := by
  induction first generalizing state with
  | nil => simp [Quiet, applyAll]
  | cons event first ih =>
    simp only [List.cons_append, Quiet, ih, and_assoc]
    rfl

theorem Quiet.resolves?_ne {state : State} {events : List Event} {token : Token}
    (quiet : state.Quiet events) (latest : state.latestRefresh = some token) :
    ∀ event ∈ events, event.resolves? ≠ some token := by
  intro event member resolves
  obtain ⟨before, after, rfl⟩ := List.append_of_mem member
  obtain ⟨first, second⟩ := quiet_append.1 quiet
  have still := (applyAll_of_quiet first).2.2.trans latest
  exact Event.line?_of_resolves? resolves (second.1 ((heeds_of_resolves? resolves).2 still))

theorem Quiet.not_supersedes {state : State} {events : List Event} {token : Token}
    (quiet : state.Quiet events) (opened : .refreshStarted token ∈ events) :
    ¬ state.Supersedes token := by
  intro newer
  obtain ⟨before, after, rfl⟩ := List.append_of_mem opened
  obtain ⟨first, second⟩ := quiet_append.1 quiet
  have still : (state.applyAll before).Supersedes token := by
    simpa only [Supersedes, (applyAll_of_quiet first).2.2] using newer
  cases second.1 still

/-- The status line is the one at the start, or that of the last event which counts and has one. -/
theorem quiet_or_last_writer (state : State) (events : List Event) :
    state.Quiet events ∨ ∃ earlier event later, events = earlier ++ event :: later ∧
      (state.applyAll earlier).Heeds event ∧
      event.line? = some (state.applyAll events).status ∧
      ((state.applyAll earlier).apply event).Quiet later := by
  induction events generalizing state with
  | nil => exact .inl trivial
  | cons event events ih =>
    rcases ih (state.apply event) with quiet | ⟨earlier, writer, later, rfl, heeds, line, quiet⟩
    · by_cases writes : state.Heeds event ∧ event.line? ≠ none
      · obtain ⟨line, hl⟩ := Option.ne_none_iff_exists'.1 writes.2
        have status : (state.applyAll (event :: events)).status = line := by
          have own := status_apply_of_heeds writes.1
          rw [hl, Option.getD_some] at own
          exact (applyAll_of_quiet quiet).1.trans own
        exact .inr ⟨[], event, events, rfl, writes.1, by rw [hl, status], quiet⟩
      · refine .inl ⟨fun heeds => ?_, quiet⟩
        exact Classical.byContradiction fun has => writes ⟨heeds, has⟩
    · exact .inr ⟨event :: earlier, writer, later, rfl, heeds, line, quiet⟩

/-! ## The snapshot -/

theorem projects_applyAll (state : State) (events : List Event) :
    (state.applyAll events).projects = state.projects ∨
    ∃ token, .projectsLoaded token (state.applyAll events).projects ∈ events := by
  induction events generalizing state with
  | nil => exact .inl rfl
  | cons event events ih =>
    have step : state.applyAll (event :: events) = (state.apply event).applyAll events := rfl
    rw [step]
    rcases ih (state.apply event) with same | ⟨token, loaded⟩
    · rw [same]
      cases event with
      | projectsLoaded token projects =>
        rw [apply]
        split
        · exact .inr ⟨token, List.mem_cons_self⟩
        · exact .inl rfl
      | refreshStarted | refreshFailed =>
        rw [apply]
        split <;> exact .inl rfl
      | _ => exact .inl rfl
    · exact .inr ⟨token, List.mem_cons_of_mem _ loaded⟩

theorem apply_of_passes {state : State} {token : Token} (latest : state.latestRefresh = some token)
    {event : Event} (passes : Event.Passes token event) :
    (state.apply event).projects = state.projects ∧
    (state.apply event).latestRefresh = some token := by
  by_cases heeds : state.Heeds event
  · cases event with
    | refreshStarted opened =>
      have newer : token < opened := heeds token latest
      exact absurd (passes.1 opened rfl) (Nat.not_le_of_lt newer)
    | projectsLoaded | refreshFailed =>
      exact absurd (heeds.symm.trans latest) passes.2
    | _ => exact ⟨rfl, latest⟩
  · rw [apply_of_not_heeds heeds]
    exact ⟨rfl, latest⟩

theorem applyAll_of_passes {state : State} {token : Token}
    (latest : state.latestRefresh = some token) {events : List Event}
    (passes : ∀ event ∈ events, Event.Passes token event) :
    (state.applyAll events).projects = state.projects ∧
    (state.applyAll events).latestRefresh = some token := by
  induction events generalizing state with
  | nil => exact ⟨rfl, latest⟩
  | cons event events ih =>
    obtain ⟨projects, still⟩ := apply_of_passes latest (passes event List.mem_cons_self)
    have rest := ih still fun e he => passes e (List.mem_cons_of_mem _ he)
    rw [projects] at rest
    exact rest

/-- An error stays in the status line until a newer refresh starts, the newest one has a result, a
change is reported as made or the line is cleared. -/
theorem error_applyAll {state : State} {token : Token} (latest : state.latestRefresh = some token)
    (error : ∃ status, state.status = some status ∧ status.kind = .error) {events : List Event}
    (passes : ∀ event ∈ events,
      Event.Passes token event ∧ ¬ event.IsSuccess ∧ event ≠ .statusCleared) :
    ∃ status, (state.applyAll events).status = some status ∧ status.kind = .error := by
  rcases quiet_or_last_writer state events with
    quiet | ⟨earlier, writer, later, rfl, heeds, line, _⟩
  · rw [(applyAll_of_quiet quiet).1]
    exact error
  · have before : ∀ event ∈ earlier, Event.Passes token event :=
      fun event he => (passes event (List.mem_append_left _ he)).1
    have still := (applyAll_of_passes latest before).2
    obtain ⟨own, plain, kept⟩ := passes writer (List.mem_append_right _ List.mem_cons_self)
    cases writer with
    | refreshStarted opened =>
      have newer : token < opened := heeds token still
      exact absurd (own.1 opened rfl) (Nat.not_le_of_lt newer)
    | projectsLoaded | refreshFailed => exact absurd (heeds.symm.trans still) own.2
    | createFailed | deleteFailed | userError => exact ⟨_, (Option.some.inj line).symm, rfl⟩
    | projectCreated => exact absurd (.inl rfl) plain
    | projectDeleted => exact absurd (.inr rfl) plain
    | statusCleared => exact absurd rfl kept
    | createDraftSubmitted | deleteRequested | deleteDeclined | deleteConfirmed => cases line

end State

end ProjectClient

import ProjectClient.Kernel.Basic
import ProjectClient.Proofs.Flow.Alone
import ProjectClient.Proofs.State.Page

/-! The kernel without its race guard. While the flows of a client run one after the other, no
result can come late, and tokens make no difference to anything that can be seen. -/
namespace ProjectClient

def Mutation.status (accepted : Bool) : Mutation → Status
  | create _ => if accepted then .created else .createFailed
  | delete _ => if accepted then .deleted else .deleteFailed

def Outcome.reports : Outcome (List Project) → List Report
  | ok projects => [.status .loading, .snapshot projects]
  | failed _ => [.status .loading, .status .loadFailed]
  | crashed => [.status .loading]

def Course.reports : Course → List Report
  | refreshed listed => listed.reports
  | refused mutation _ => [.status (mutation.status false)]
  | lost _ => []
  | changed mutation listed => .status (mutation.status true) :: listed.reports

/-- A kernel that knows no tokens. Every report counts. -/
structure Plain where
  page : Page := {}
  queue : List Report := []

namespace Plain

def accept (plain : Plain) (command : Command) : Plain × Option Flow :=
  let (state, flow?) := plain.page.state.accept command
  ({ plain with page := state.page }, flow?)

def take? (plain : Plain) (course : Course) : Option Plain :=
  if plain.queue.length + course.reports.length ≤ 100 then
    some { plain with queue := plain.queue ++ course.reports }
  else none

def tick (plain : Plain) : Plain × List Status :=
  ({ page := plain.page.receiveAll plain.queue }, plain.queue.filterMap Report.status?)

/-- Ticks behind a flow, unless one of its calls crashed or its reports do not fit. -/
def follow (plain : Plain) (course : Course) : Plain × Option (List Status) :=
  match plain.take? course with
  | some last => if course.IsWhole then (last.tick.1, some last.tick.2) else (last, none)
  | none => (plain, none)

variable {m : Type → Type} [Monad m]

def execute (api : Api m) (plain : Plain) (command : Command) :
    m (Plain × Option (List Status)) :=
  match plain.accept command with
  | (plain, none) => pure (plain.tick.1, some plain.tick.2)
  | (plain, some flow) => return plain.follow (← flow.ask api)

def dispatch (api : Api m) (plain : Plain) (command : Command) : m (Option Plain) :=
  match plain.accept command with
  | (plain, none) => pure (some plain)
  | (plain, some flow) => return plain.take? (← flow.ask api)

end Plain

/-! ## Reports and events -/

theorem Mutation.report?_report (mutation : Mutation) (accepted : Bool) :
    (mutation.report accepted).report? = some (.status (mutation.status accepted)) := by
  cases mutation <;> cases accepted <;> rfl

theorem Mutation.heeds_report (mutation : Mutation) (accepted : Bool) (state : State) :
    state.Heeds (mutation.report accepted) := by
  cases mutation <;> cases accepted <;> trivial

theorem Token.map_report?_events (token : Token) (listed : Outcome (List Project)) :
    (token.events listed).map Event.report? = listed.reports.map some := by
  cases listed <;> rfl

theorem Course.map_report?_events (course : Course) (token : Token) :
    (course.events token).map Event.report? = course.reports.map some := by
  cases course with
  | refreshed listed => exact token.map_report?_events listed
  | refused mutation error => exact congrArg (· :: []) (mutation.report?_report false)
  | lost mutation => rfl
  | changed mutation listed =>
    exact congr (congrArg _ (mutation.report?_report true)) (token.map_report?_events listed)

theorem Course.length_events (course : Course) (token : Token) :
    (course.events token).length = course.reports.length := by
  simpa using congrArg List.length (course.map_report?_events token)

theorem Course.length_reports_le (course : Course) : course.reports.length ≤ 3 := by
  cases course with
  | refreshed listed | changed mutation listed => cases listed <;> simp [reports, Outcome.reports]
  | refused | lost => simp [reports]

namespace State

def Opened (state : State) (issued : Nat) : Prop :=
  ∀ latest ∈ state.latestRefresh, latest ≤ issued

theorem Opened.supersedes {state : State} {issued : Nat} (opened : state.Opened issued) :
    state.Supersedes (issued + 1) :=
  fun latest h => Nat.lt_succ_of_le (opened latest h)

theorem Opened.of_latest {state : State} {token issued : Token}
    (latest : state.latestRefresh = some token) (le : token ≤ issued) : state.Opened issued := by
  intro other h
  cases latest.symm.trans h
  exact le

theorem Opened.congr {state other : State} {issued : Nat} (opened : state.Opened issued)
    (same : other.latestRefresh = state.latestRefresh) : other.Opened issued :=
  fun latest h => opened latest (same.symm.trans h)

theorem Opened.apply {state : State} {issued : Nat} (opened : state.Opened issued) {event : Event}
    (quiet : event.opens? = none) : (state.apply event).Opened issued :=
  opened.congr (latestRefresh_apply quiet)

theorem Opened.report {state : State} {issued : Nat} (opened : state.Opened issued)
    (mutation : Mutation) (accepted : Bool) :
    (state.apply (mutation.report accepted)).Opened issued :=
  opened.apply (mutation.opens?_report accepted)

/-- A refresh that takes the next token counts as a whole. -/
theorem Opened.refresh {state : State} {issued : Nat} (opened : state.Opened issued)
    (listed : Outcome (List Project)) :
    state.HeedsAll (Token.events (issued + 1) listed) ∧
      (state.applyAll (Token.events (issued + 1) listed)).Opened (issued + 1) := by
  have newest := latestRefresh_apply_of_opens opened.supersedes
  have first : (state.apply (.refreshStarted (issued + 1))).Opened (issued + 1) :=
    .of_latest newest (Nat.le_refl _)
  cases listed with
  | ok projects =>
    have result : Event.opens? (.projectsLoaded (issued + 1) projects) = none := rfl
    exact ⟨⟨opened.supersedes, newest, trivial⟩, first.apply result⟩
  | failed error =>
    have result : Event.opens? (.refreshFailed (issued + 1)) = none := rfl
    exact ⟨⟨opened.supersedes, newest, trivial⟩, first.apply result⟩
  | crashed => exact ⟨⟨opened.supersedes, trivial⟩, first⟩

theorem Opened.course {state : State} {issued : Nat} (opened : state.Opened issued)
    (course : Course) :
    state.HeedsAll (course.events (issued + 1)) ∧
      (state.applyAll (course.events (issued + 1))).Opened (issued + course.taken) := by
  cases course with
  | refreshed listed => exact opened.refresh listed
  | refused mutation error =>
    exact ⟨⟨mutation.heeds_report false state, trivial⟩, opened.report mutation false⟩
  | lost mutation => exact ⟨trivial, opened⟩
  | changed mutation listed =>
    obtain ⟨heeds, last⟩ := (opened.report mutation true).refresh listed
    exact ⟨⟨mutation.heeds_report true state, heeds⟩, last⟩

/-! ## Tokens do not matter to commands -/

theorem heeds_congr {first second : State} (same : first.latestRefresh = second.latestRefresh)
    (event : Event) : first.Heeds event ↔ second.Heeds event := by
  cases event with
  | refreshStarted | projectsLoaded | refreshFailed => simp only [Heeds, Supersedes, same]
  | _ => exact Iff.rfl

theorem latestRefresh_apply_congr {first second : State}
    (same : first.latestRefresh = second.latestRefresh) (event : Event) :
    (first.apply event).latestRefresh = (second.apply event).latestRefresh := by
  have heeds := heeds_congr same event
  cases event with
  | refreshStarted token =>
    by_cases newer : first.Supersedes token
    · rw [latestRefresh_apply_of_opens newer, latestRefresh_apply_of_opens (heeds.1 newer)]
    · have older : ¬ first.Heeds (.refreshStarted token) := newer
      rw [apply_of_not_heeds older, apply_of_not_heeds (mt heeds.2 older), same]
  | _ => rw [latestRefresh_apply rfl, latestRefresh_apply rfl, same]

theorem heedsAll_congr {first second : State} (same : first.latestRefresh = second.latestRefresh)
    (events : List Event) :
    (first.HeedsAll events ↔ second.HeedsAll events) ∧
      (first.applyAll events).latestRefresh = (second.applyAll events).latestRefresh := by
  induction events generalizing first second with
  | nil => exact ⟨Iff.rfl, same⟩
  | cons event events ih =>
    obtain ⟨rest, last⟩ := ih (latestRefresh_apply_congr same event)
    exact ⟨and_congr (heeds_congr same event) rest, last⟩

theorem latestRefresh_accept (state : State) (command : Command) :
    (state.accept command).1.latestRefresh = state.latestRefresh := by
  cases command with
  | submitCreate =>
    simp only [accept, submitDraft]
    split <;> rfl
  | createProject name =>
    simp only [accept, submitDraft]
    split <;> rfl
  | requestDelete id =>
    simp only [accept]
    split <;> rfl
  | confirmDelete =>
    simp only [accept]
    split <;> rfl
  | cancelDelete =>
    simp only [accept]
    split <;> rfl
  | loadInitialState | refresh | clearStatus => rfl

theorem submitDraft_page (state : State) :
    state.page.state.submitDraft.1.page = state.submitDraft.1.page ∧
      state.page.state.submitDraft.2 = state.submitDraft.2 := by
  have same : state.page.state.createDraft = state.createDraft := rfl
  by_cases blank : Text.IsBlank state.createDraft
  · rw [submitDraft, submitDraft, same, if_pos blank, if_pos blank]
    exact ⟨rfl, rfl⟩
  · rw [submitDraft, submitDraft, same, if_neg blank, if_neg blank]
    exact ⟨rfl, rfl⟩

theorem accept_page (state : State) (command : Command) :
    (state.page.state.accept command).1.page = (state.accept command).1.page ∧
      (state.page.state.accept command).2 = (state.accept command).2 := by
  cases command with
  | submitCreate => exact state.submitDraft_page
  | createProject name => exact (state.editDraft fun _ => name).submitDraft_page
  | requestDelete id =>
    have same : state.page.state.deleteTarget? id = state.deleteTarget? id := rfl
    simp only [accept, same]
    cases state.deleteTarget? id <;> exact ⟨rfl, rfl⟩
  | confirmDelete =>
    have same : state.page.state.pendingDelete = state.pendingDelete := rfl
    simp only [accept, same]
    cases state.pendingDelete <;> exact ⟨rfl, rfl⟩
  | cancelDelete =>
    have same : state.page.state.pendingDelete = state.pendingDelete := rfl
    refine ⟨?_, rfl⟩
    simp only [accept, same]
    split <;> rfl
  | loadInitialState | refresh | clearStatus => exact ⟨rfl, rfl⟩

end State

end ProjectClient

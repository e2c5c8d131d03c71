import ProjectClient.Kernel.Command
import ProjectClient.Proofs.State.Effect

/-! What the user sees, and reports without tokens. While every event counts, the tokens play no
part: a report either writes the status line or brings a snapshot that replaces the last one. -/
namespace ProjectClient

structure Page where
  projects : List Project := []
  status : Option Status := none
  pendingDelete : Option PendingDelete := none
  createDraft : String := ""
deriving DecidableEq

inductive Report where
  | status (status : Status)
  | snapshot (projects : List Project)
deriving DecidableEq

namespace Page

/-- A status stands in the line whatever was there, and a snapshot leaves the line empty. -/
def receive (page : Page) : Report → Page
  | .status status => { page with status := some status }
  | .snapshot projects => { page with projects, status := none }

def receiveAll (page : Page) (reports : List Report) : Page :=
  reports.foldl receive page

def state (page : Page) : State where
  projects := page.projects
  status := page.status
  pendingDelete := page.pendingDelete
  createDraft := page.createDraft

theorem receiveAll_append (page : Page) (first second : List Report) :
    page.receiveAll (first ++ second) = (page.receiveAll first).receiveAll second :=
  List.foldl_append

end Page

namespace Report

def status? : Report → Option Status
  | status written => some written
  | snapshot _ => none

def snapshot? : Report → Option (List Project)
  | status _ => none
  | snapshot projects => some projects

end Report

def Event.report? : Event → Option Report
  | refreshStarted _ => some (.status .loading)
  | projectsLoaded _ projects => some (.snapshot projects)
  | refreshFailed _ => some (.status .loadFailed)
  | projectCreated => some (.status .created)
  | createFailed => some (.status .createFailed)
  | projectDeleted => some (.status .deleted)
  | deleteFailed => some (.status .deleteFailed)
  | _ => none

namespace State

def page (state : State) : Page where
  projects := state.projects
  status := state.status
  pendingDelete := state.pendingDelete
  createDraft := state.createDraft

def HeedsAll (state : State) : List Event → Prop
  | [] => True
  | event :: events => state.Heeds event ∧ (state.apply event).HeedsAll events

theorem heedsAll_append {state : State} {first second : List Event} :
    state.HeedsAll (first ++ second) ↔
      state.HeedsAll first ∧ (state.applyAll first).HeedsAll second := by
  induction first generalizing state with
  | nil => simp [HeedsAll, applyAll]
  | cons event first ih =>
    simp only [List.cons_append, HeedsAll, ih, and_assoc]
    rfl

def note (state : State) : Report → State
  | .status status => state.setStatus status
  | .snapshot projects => { state with projects, status := none }

theorem apply_of_heeds {state : State} {event : Event} {report : Report}
    (h : event.report? = some report) (heeds : state.Heeds event) :
    state.apply event =
      { state with latestRefresh := event.opens?.or state.latestRefresh }.note report := by
  cases event with
  | refreshStarted | projectsLoaded | refreshFailed =>
    cases h
    exact if_pos heeds
  | projectCreated | createFailed | projectDeleted | deleteFailed =>
    cases h
    rfl
  | _ => cases h

theorem page_apply {state : State} {event : Event} {report : Report}
    (h : event.report? = some report) (heeds : state.Heeds event) :
    (state.apply event).page = state.page.receive report := by
  rw [apply_of_heeds h heeds]
  cases report <;> rfl

theorem applyReporting_of_heeds {state : State} {event : Event} {report : Report}
    (h : event.report? = some report) (heeds : state.Heeds event) :
    state.applyReporting event = (state.apply event, report.status?) := by
  have applied := apply_of_heeds h heeds
  cases report with
  | status status =>
    have counted : state.statusRevision + 1 ≠ state.statusRevision := by simp
    rw [applyReporting, applied]
    exact congrArg _ (if_neg counted)
  | snapshot projects =>
    have still : state.statusRevision = state.statusRevision := rfl
    rw [applyReporting, applied]
    exact congrArg _ (if_pos still)

theorem applyTrail_of_heedsAll {state : State} {events : List Event} {reports : List Report}
    (h : events.map Event.report? = reports.map some) (heeds : state.HeedsAll events) :
    state.applyTrail events = (state.applyAll events, reports.filterMap Report.status?) ∧
      (state.applyAll events).page = state.page.receiveAll reports := by
  induction events generalizing state reports with
  | nil =>
    cases List.map_eq_nil_iff.1 h.symm
    exact ⟨rfl, rfl⟩
  | cons event events ih =>
    obtain ⟨report, rest, rfl, own, others⟩ := List.map_eq_cons_iff.1 h.symm
    obtain ⟨trail, page⟩ := ih others.symm heeds.2
    constructor
    · rw [applyTrail, applyReporting_of_heeds own.symm heeds.1]
      dsimp only
      rw [trail]
      cases report <;> simp [List.filterMap_cons, Report.status?, applyAll]
    · have first : (state.apply event).page = state.page.receive report :=
        page_apply own.symm heeds.1
      rw [first] at page
      exact page

end State

end ProjectClient

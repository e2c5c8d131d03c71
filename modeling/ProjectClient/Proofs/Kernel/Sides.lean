import Mathlib.Data.List.Induction
import ProjectClient.Proofs.Kernel.Gate
import ProjectClient.Proofs.Kernel.Room

/-! The two sides of the state. The user writes the draft and the question about a delete, the flows
write the snapshot, the status line and what belongs to them. Neither side reads what the other
writes, so it does not matter how the updates of both come to lie among each other. -/
namespace ProjectClient

def Event.IsSent (event : Event) : Prop :=
  ∃ stage : Stage, stage.event? = some event

inductive UserUpdate where
  | edit (edit : String → String)
  | submit
  | request (target : PendingDelete)
  | decline
  | confirm

namespace State

def update (state : State) : UserUpdate → State
  | .edit edit => state.editDraft edit
  | .submit => state.apply .createDraftSubmitted
  | .request target => state.apply (.deleteRequested target)
  | .decline => state.apply .deleteDeclined
  | .confirm => state.apply .deleteConfirmed

def updateAll (state : State) (updates : List UserUpdate) : State :=
  updates.foldl update state

def takeAll (state : State) (order : List (UserUpdate ⊕ Event)) : State :=
  order.foldl (fun state => Sum.elim state.update state.apply) state

/-- The user's side of one state with the other side of another. -/
def beside (user flows : State) : State :=
  { flows with pendingDelete := user.pendingDelete, createDraft := user.createDraft }

theorem beside_self (state : State) : state.beside state = state := rfl

theorem update_beside (user flows : State) (update : UserUpdate) :
    (user.beside flows).update update = (user.update update).beside flows := by
  cases update <;> rfl

theorem apply_beside (user flows : State) {event : Event} (sent : event.IsSent) :
    (user.beside flows).apply event = user.beside (flows.apply event) := by
  obtain ⟨stage, sends⟩ := sent
  have report := Stage.report?_of_event? sends
  cases event with
  | refreshStarted token =>
    have same : (user.beside flows).Supersedes token ↔ flows.Supersedes token := Iff.rfl
    by_cases newer : flows.Supersedes token
    · simp only [apply, if_pos newer, if_pos (same.2 newer)]
      rfl
    · simp only [apply, if_neg newer, if_neg (mt same.1 newer)]
  | projectsLoaded token | refreshFailed token =>
    have same : (user.beside flows).latestRefresh = flows.latestRefresh := rfl
    simp only [apply, same]
    split <;> rfl
  | projectCreated | createFailed | projectDeleted | deleteFailed => rfl
  | _ => exact absurd rfl report

/-- Each side goes its own way, however the updates lie among each other. -/
theorem takeAll_beside (user flows : State) {order : List (UserUpdate ⊕ Event)}
    (sent : ∀ event ∈ order.filterMap Sum.getRight?, event.IsSent) :
    (user.beside flows).takeAll order =
      (user.updateAll (order.filterMap Sum.getLeft?)).beside
        (flows.applyAll (order.filterMap Sum.getRight?)) := by
  induction order generalizing user flows with
  | nil => rfl
  | cons next order ih =>
    cases next with
    | inl update =>
      have step : (user.beside flows).takeAll (.inl update :: order) =
          ((user.beside flows).update update).takeAll order := rfl
      rw [step, update_beside, ih _ _ sent]
      rfl
    | inr event =>
      rw [List.filterMap_cons, Sum.getRight?_inr, List.forall_mem_cons] at sent
      have step : (user.beside flows).takeAll (.inr event :: order) =
          ((user.beside flows).apply event).takeAll order := rfl
      rw [step, apply_beside _ _ sent.1, ih _ _ sent.2]
      rfl

theorem updateAll_beside (user flows : State) (updates : List UserUpdate) :
    (user.beside flows).updateAll updates = (user.updateAll updates).beside flows := by
  induction updates generalizing user with
  | nil => rfl
  | cons update updates ih =>
    have step (state : State) :
        state.updateAll (update :: updates) = (state.update update).updateAll updates := rfl
    rw [step, step, update_beside, ih]

theorem applyAll_beside (user flows : State) {events : List Event}
    (sent : ∀ event ∈ events, event.IsSent) :
    (user.beside flows).applyAll events = user.beside (flows.applyAll events) := by
  induction events generalizing flows with
  | nil => rfl
  | cons event events ih =>
    rw [List.forall_mem_cons] at sent
    have step (state : State) :
        state.applyAll (event :: events) = (state.apply event).applyAll events := rfl
    rw [step, step, apply_beside _ _ sent.1, ih _ sent.2]

end State

namespace Client

theorem event?_of_perform? {client next : Client} {move : Move}
    (h : client.perform? move = some next) :
    ∀ event ∈ next.queue, event ∈ client.queue ∨
      ∃ flow stage, move = .advance flow ∧ client.stage? flow = some stage ∧
        stage.event? = some event := by
  intro event queued
  cases perform?_eq_some.1 h with
  | dispatch command idle =>
    rw [queue, outbox_dispatch] at queued
    exact .inl queued
  | receive first rest ready head =>
    refine .inl ?_
    rw [queue, head]
    exact List.mem_cons_of_mem _ queued
  | @advance flow stage _ _ stands moved =>
    exact (Stage.event?_of_advance? moved event queued).imp id fun own =>
      ⟨flow, stage, rfl, stands, own⟩
  | execute | edit | conclude | answer | answerList | settle => exact .inl queued

theorem exists_sender {initial client : Client} {moves : List Move} (empty : initial.queue = [])
    (run : initial.performAll? moves = some client) :
    ∀ event ∈ client.queue, ∃ earlier flow later mid stage,
      moves = earlier ++ .advance flow :: later ∧ initial.performAll? earlier = some mid ∧
      mid.stage? flow = some stage ∧ stage.event? = some event := by
  induction moves using List.reverseRecOn generalizing client with
  | nil =>
    cases run
    rw [empty]
    nofun
  | append_singleton moves move ih =>
    simp only [performAll?, List.foldlM_append, Option.bind_eq_bind, Option.bind_eq_some_iff,
      List.foldlM_cons, List.foldlM_nil, Option.pure_def, Option.some.injEq] at run
    obtain ⟨mid, before, _, moved, rfl⟩ := run
    intro event queued
    rcases event?_of_perform? moved event queued with old | ⟨flow, stage, rfl, stands, own⟩
    · obtain ⟨earlier, flow, later, mid, stage, rfl, rest⟩ := ih before event old
      exact ⟨earlier, flow, later ++ [move], mid, stage, by simp, rest⟩
    · exact ⟨moves, flow, [], mid, stage, rfl, before, stands, own⟩

end Client

/-- The channel only ever holds events that flows sent, and those do not touch the user's side of
the state. What the user does to the state at once does not touch the other side. So any order in
which updates of the user and events of flows are taken leads to the state that the events alone,
and then the updates alone, lead to. -/
theorem sides_keep_apart {state : State} {moves : List Move} {client : Client}
    (run : Client.performAll? { kernel := { state } } moves = some client) :
    (∀ event ∈ client.kernel.outbox.channel.queue, ∃ earlier flow later mid stage,
      moves = earlier ++ .advance flow :: later ∧
      Client.performAll? { kernel := { state } } earlier = some mid ∧
      mid.stage? flow = some stage ∧ stage.event? = some event) ∧
    (∀ event : Event, event.IsSent → ∀ found : State,
      (found.apply event).createDraft = found.createDraft ∧
      (found.apply event).pendingDelete = found.pendingDelete) ∧
    (∀ (update : UserUpdate) (found : State),
      (found.update update).projects = found.projects ∧
      (found.update update).status = found.status ∧
      (found.update update).latestRefresh = found.latestRefresh ∧
      (found.update update).statusRevision = found.statusRevision) ∧
    (∀ (found : State) (updates : List UserUpdate) (events : List Event),
      (∀ event ∈ events, event.IsSent) → ∀ order : List (UserUpdate ⊕ Event),
        order.filterMap Sum.getLeft? = updates → order.filterMap Sum.getRight? = events →
          found.takeAll order = (found.applyAll events).updateAll updates) := by
  refine ⟨Client.exists_sender rfl run, fun event sent found => ?_, fun update found => ?_, ?_⟩
  · have apart := found.apply_beside found sent
    rw [State.beside_self] at apart
    rw [apart]
    exact ⟨rfl, rfl⟩
  · have apart := found.update_beside found update
    rw [State.beside_self] at apart
    rw [apart]
    exact ⟨rfl, rfl, rfl, rfl⟩
  · rintro found updates events sent order rfl rfl
    have interleaved := found.takeAll_beside found sent
    have separate := found.applyAll_beside found sent
    rw [State.beside_self] at interleaved separate
    rw [interleaved, separate, State.updateAll_beside]
    rfl

/-- A refresh has sent its first event. The user submits a draft before the event is taken and
edits the next one after it. -/
theorem sides_keep_apart_of_refresh :
    let state : State := { createDraft := "Site" }
    let moves := [.dispatch .refresh, .advance (some 0), .advance (some 0)]
    ∃ client, Client.performAll? { kernel := { state } } moves = some client ∧
      client.kernel.outbox.channel.queue = [.refreshStarted 1] ∧
      ∀ edit, state.takeAll [.inl .submit, .inr (.refreshStarted 1), .inl (.edit edit)] =
        { createDraft := edit "", latestRefresh := some 1, status := some .loading,
          statusRevision := 1 } := by
  intro state moves
  obtain ⟨client, run, queued⟩ : ∃ client,
      Client.performAll? { kernel := { state } } moves = some client ∧
      client.kernel.outbox.channel.queue = [.refreshStarted 1] := ⟨_, rfl, rfl⟩
  refine ⟨client, run, queued, fun edit => ?_⟩
  obtain ⟨sent, -, -, meet⟩ := sides_keep_apart run
  have started : ∀ event ∈ [Event.refreshStarted 1], event.IsSent := by
    intro event among
    obtain ⟨_, _, _, _, stage, _, _, _, sends⟩ := sent event (queued ▸ among)
    exact ⟨stage, sends⟩
  exact (meet state [.submit, .edit edit] [.refreshStarted 1] started
    [.inl .submit, .inr (.refreshStarted 1), .inl (.edit edit)] rfl rfl).trans rfl

end ProjectClient

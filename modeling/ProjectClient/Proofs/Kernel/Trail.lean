import ProjectClient.Proofs.Kernel.Client
import ProjectClient.Proofs.Kernel.Errors
import ProjectClient.Proofs.State.History

/-! What a tick tells of the events that were queued. It knows a write only by the count that goes
up, and still tells each of them once, whatever the count and however often a text comes again. -/
namespace ProjectClient

namespace State

theorem written_of_reporting (state : State) (event : Event) :
    (state.applyReporting event).2 =
      if event.IsEffective state.latestRefresh then event.written? else none := by
  rw [applyReporting_eq]
  cases line : event.line? <;> simp [Event.isEffective_iff, Event.written?, line]

theorem trail_concat (state : State) (events : List Event) (event : Event) :
    (state.applyTrail (events ++ [event])).2 =
      (state.applyTrail events).2 ++ ((state.applyAll events).applyReporting event).2.toList := by
  rw [applyTrail_append, Client.applyTrail_fst state events, applyTrail_singleton]

/-- The trail of a history: one status for each event that wrote one. -/
theorem applyTrail_snd (state : State) (events : List Event) :
    (state.applyTrail events).2 = (state.effective events).filterMap Event.written? := by
  induction events using List.reverseRecOn with
  | nil => rfl
  | append_singleton events event ih =>
    rw [trail_concat, ih, written_of_reporting, latestRefresh_applyAll_eq, effective_concat,
      List.filterMap_append]
    congr 1
    split
    · cases written : event.written? <;> simp [written]
    · rfl

theorem getLast?_written {events : List Event} {event : Event}
    (last : events.getLast? = some event) {status : Status}
    (written : event.written? = some status) :
    (events.filterMap Event.written?).getLast? = some status := by
  obtain ⟨before, rfl⟩ := List.getLast?_eq_some_iff.1 last
  simp [written]

end State

/-- After a tick the queue is empty, and the trail has the status of every event that wrote one, in
the order of the queue. The count went up by as much, and the line is that of the last event with an
effect: the last of the trail unless this event cleared it. -/
theorem tick_tells_every_status (kernel : Kernel) :
    let queue := kernel.outbox.channel.queue
    let effective := kernel.state.effective queue
    let after := kernel.tick.1
    let trail := kernel.tick.2
    after = { kernel with state := kernel.state.applyAll queue, outbox.channel.queue := [] } ∧
    trail = effective.filterMap Event.written? ∧
    (after.state.statusRevision - kernel.state.statusRevision).toNat = trail.length % UInt64.size ∧
    after.state.status = match effective.getLast? with
      | none => kernel.state.status
      | some event => if event.written? = none then none else trail.getLast? := by
  intro queue effective after trail
  have told : after.state = kernel.state.told queue :=
    (congrArg Kernel.state (Client.tick_fst kernel)).trans (kernel.state.applyAll_eq_told queue)
  have statuses : trail = effective.filterMap Event.written? := kernel.state.applyTrail_snd queue
  refine ⟨Client.tick_fst kernel, statuses, ?_, ?_⟩
  · have revision : after.state.statusRevision =
        kernel.state.statusRevision + UInt64.ofNat trail.length := by
      rw [told, statuses]
      rfl
    rw [revision, UInt64.add_comm, UInt64.add_sub_cancel, UInt64.toNat_ofNat']
  · have status : after.state.status =
        (effective.getLast?.bind Event.line?).getD kernel.state.status := by
      rw [told]
      rfl
    rw [status]
    cases last : effective.getLast? with
    | none => rfl
    | some event =>
      obtain ⟨line, hasLine⟩ := State.exists_line_of_effective (List.mem_of_getLast? last)
      have written : event.written? = line := congrArg Option.join hasLine
      dsimp only
      rw [Option.bind_some, hasLine, Option.getD_some, written, statuses]
      cases line with
      | none => rfl
      | some status => exact (State.getLast?_written last written).symm

end ProjectClient

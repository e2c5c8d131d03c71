import ProjectClient.Flow.System

/-! A schedule is one interleaving. Whatever a schedule does, single steps of the flows and of the
receiver lead to the same flows, so all that holds of every interleaving holds of schedules. -/
namespace ProjectClient

def RunsTo {σ α : Type} (perform? : σ → α → Option σ) (first last : σ) : Prop :=
  ∃ actions : List α, actions.foldlM perform? first = some last

theorem foldlM_keeps {σ α : Type} {perform? : σ → α → Option σ} (holds : σ → Prop)
    {actions : List α}
    (step : ∀ {state next : σ}, ∀ action ∈ actions, holds state →
      perform? state action = some next → holds next)
    {state last : σ} (start : holds state) (run : actions.foldlM perform? state = some last) :
    holds last := by
  induction actions generalizing state with
  | nil =>
    cases run
    exact start
  | cons action actions ih =>
    simp only [List.foldlM_cons, Option.bind_eq_bind, Option.bind_eq_some_iff] at run
    obtain ⟨middle, moved, run⟩ := run
    exact ih (fun action later => step action (.tail _ later)) (step action (.head _) start moved) run

namespace RunsTo

variable {σ α : Type} {perform? : σ → α → Option σ} {first middle last : σ}

theorem refl (state : σ) : RunsTo perform? state state :=
  ⟨[], rfl⟩

theorem step (action : α) (h : perform? first action = some middle)
    (rest : RunsTo perform? middle last) : RunsTo perform? first last := by
  obtain ⟨actions, run⟩ := rest
  refine ⟨action :: actions, ?_⟩
  rw [List.foldlM_cons, h]
  exact run

theorem trans (front : RunsTo perform? first middle) (rest : RunsTo perform? middle last) :
    RunsTo perform? first last := by
  obtain ⟨actions, run⟩ := front
  obtain ⟨more, further⟩ := rest
  refine ⟨actions ++ more, ?_⟩
  rw [List.foldlM_append]
  exact Option.bind_eq_some_iff.2 ⟨middle, run, further⟩

end RunsTo

def Flows.LeadsTo (flows last : Flows) : Prop :=
  RunsTo perform? flows last

theorem Flows.leadsTo_exhaust (flows : Flows) (i : Nat) : flows.LeadsTo (flows.exhaust i) := by
  fun_induction Flows.exhaust flows i with
  | case1 flows next moved ih => exact .step (.advance i) moved ih
  | case2 flows => exact .refl flows

namespace Schedule

theorem leadsTo_start (schedule : Schedule) (flow : Flow) :
    schedule.flows.LeadsTo (schedule.start flow).flows :=
  .step (.start flow) rfl (Flows.leadsTo_exhaust _ _)

theorem leadsTo_resolve (schedule : Schedule) (call : Nat)
    (answer : Except ApiError (List Project)) :
    schedule.flows.LeadsTo (schedule.resolve call answer).flows := by
  unfold resolve
  split
  · exact .refl _
  · dsimp only
    split
    · rename_i moved
      exact .step _ moved (Flows.leadsTo_exhaust _ _)
    · exact .refl _

theorem leadsTo_receive (schedule : Schedule) :
    schedule.flows.LeadsTo schedule.receive.flows := by
  unfold receive
  split
  · exact .refl _
  · rename_i taken _
    exact .step .receive taken (.refl _)
  · rename_i taken _
    exact .step .receive taken (Flows.leadsTo_exhaust _ _)

theorem leadsTo_receiveMany (schedule : Schedule) (n : Nat) :
    schedule.flows.LeadsTo (schedule.receiveMany n).flows := by
  induction n with
  | zero => exact .refl _
  | succ n ih =>
    have last : schedule.receiveMany (n + 1) = (schedule.receiveMany n).receive := by
      simp [receiveMany, List.range_succ]
    rw [last]
    exact ih.trans (leadsTo_receive _)

theorem leadsTo_drain (schedule : Schedule) : schedule.flows.LeadsTo schedule.drain.flows :=
  schedule.leadsTo_receiveMany _

end Schedule

end ProjectClient

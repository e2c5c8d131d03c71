import ProjectClient.Proofs.Flow.Alone
import ProjectClient.Proofs.Flow.Deed

/-! What flows may still send, and what their moves do to the room in the channel. -/
namespace ProjectClient

theorem Outbox.send?_eq_some_iff {outbox next : Outbox} {event : Event}
    (listening : outbox.channel.isOpen) :
    outbox.send? event = some next ↔ outbox.channel.HasRoom ∧ next = outbox.push [event] := by
  by_cases room : outbox.channel.HasRoom
  · rw [Outbox.send?_of_hasRoom listening room, Option.some.injEq]
    constructor
    · intro same
      exact ⟨room, same.symm⟩
    · intro sent
      exact sent.2.symm
  · rw [Outbox.send?_of_full listening room]
    constructor
    · intro sent
      cases sent
    · intro sent
      exact absurd sent.1 room

/-- The deed costs its flow no event that it may still send. -/
def Deed.Succeeds : Deed → Prop
  | answered _ outcome => outcome = .ok ()
  | listed _ outcome => ∃ projects, outcome = .ok projects
  | _ => True

namespace Stage

def owes : Stage → Nat
  | calling _ => 3
  | awaiting _ => 3
  | reporting _ accepted => if accepted then 3 else 1
  | starting => 2
  | announcing _ => 2
  | listing _ => 1
  | awaitingList _ => 1
  | delivering .. => 1
  | ended => 0
  | crashed => 0

def IsAsking : Stage → Prop
  | awaiting _ => True
  | awaitingList _ => True
  | _ => False

theorem owes_of_event? {stage : Stage} {event : Event} (h : stage.event? = some event) :
    1 ≤ stage.owes := by
  cases stage with
  | reporting mutation accepted => cases accepted <;> simp [owes]
  | announcing | delivering => simp [owes]
  | _ => cases h

theorem not_isOver_of_event? {stage : Stage} {event : Event} (h : stage.event? = some event) :
    ¬ stage.IsOver := by
  rintro (rfl | rfl) <;> cases h

structure Goes (stage : Stage) (outbox : Outbox) (stage' : Stage) (outbox' : Outbox) : Prop where
  lower : stage'.rank < stage.rank
  load : outbox'.channel.queue.length + stage'.owes ≤ outbox.channel.queue.length + stage.owes
  grown : outbox.channel.queue.length ≤ outbox'.channel.queue.length
  held : outbox.Holds [] → outbox'.Holds []
  capacity : outbox'.channel.capacity = outbox.channel.capacity
  listening : outbox'.channel.isOpen = outbox.channel.isOpen
  sends : stage.event? ≠ none → outbox.channel.HasRoom

theorem goes_still {stage stage' : Stage} {outbox outbox' : Outbox}
    (same : outbox'.channel = outbox.channel) (lower : stage'.rank < stage.rank)
    (owed : stage'.owes ≤ stage.owes) (silent : stage.event? = none) :
    stage.Goes outbox stage' outbox' where
  lower := lower
  load := by
    rw [same]
    exact Nat.add_le_add_left owed _
  grown := Nat.le_of_eq (congrArg (·.queue.length) same.symm)
  held h := by
    rw [Outbox.Holds, same]
    exact h
  capacity := by rw [same]
  listening := by rw [same]
  sends h := absurd silent h

theorem goes_send {stage stage' : Stage} {outbox outbox' : Outbox} {event : Event}
    (listening : outbox.channel.isOpen) (sent : outbox.send? event = some outbox')
    (lower : stage'.rank < stage.rank) (owed : stage'.owes + 1 ≤ stage.owes) :
    stage.Goes outbox stage' outbox' := by
  obtain ⟨room, rfl⟩ := (Outbox.send?_eq_some_iff listening).1 sent
  have length : (outbox.push [event]).channel.queue.length =
      outbox.channel.queue.length + 1 := by
    simp [Outbox.push]
  refine ⟨lower, by omega, by omega, fun _ => ?_, rfl, rfl, fun _ => room⟩
  exact Outbox.holds_nil_push room event

theorem goes_of_does {stage stage' : Stage} {outbox outbox' : Outbox} {deed : Deed}
    (listening : outbox.channel.isOpen) (does : stage.Does deed stage')
    (shares : deed.Shares outbox outbox') : stage.Goes outbox stage' outbox' := by
  cases does with
  | call | take | ask =>
    cases shares
    exact goes_still rfl (by simp [rank]) (by simp [owes]) rfl
  | answer mutation outcome =>
    cases shares
    refine goes_still rfl (rank_answered_lt mutation outcome) ?_ rfl
    cases outcome <;> simp [answered, owes]
  | list token outcome =>
    cases shares
    refine goes_still rfl (rank_listed_lt token outcome) ?_ rfl
    cases outcome <;> simp [listed, owes]
  | confirm | refuse | announce | load | fail =>
    exact goes_send listening shares (by simp [rank]) (by simp [owes])

structure Keeps (stage : Stage) (outbox : Outbox) (stage' : Stage) (outbox' : Outbox) : Prop where
  load : outbox'.channel.queue.length + stage'.owes = outbox.channel.queue.length + stage.owes
  drop : stage.owes ≤ stage'.owes + 1
  still : stage.event? = none → stage'.owes = stage.owes

theorem keeps_of_does {stage stage' : Stage} {outbox outbox' : Outbox} {deed : Deed}
    (listening : outbox.channel.isOpen) (does : stage.Does deed stage')
    (shares : deed.Shares outbox outbox') (succeeds : deed.Succeeds) :
    stage.Keeps outbox stage' outbox' := by
  cases does with
  | call | take | ask =>
    cases shares
    exact ⟨rfl, Nat.le_succ _, fun _ => rfl⟩
  | answer mutation outcome =>
    cases shares
    cases succeeds
    exact ⟨rfl, Nat.le_succ _, fun _ => rfl⟩
  | list token outcome =>
    cases shares
    obtain ⟨projects, rfl⟩ := succeeds
    exact ⟨rfl, Nat.le_succ _, fun _ => rfl⟩
  | confirm | refuse | announce | load | fail =>
    obtain ⟨-, rfl⟩ := (Outbox.send?_eq_some_iff listening).1 shares
    constructor <;> simp [Outbox.push, owes, event?]

theorem exists_advance? {stage : Stage} {outbox : Outbox} (listening : outbox.channel.isOpen)
    (unfinished : ¬ stage.IsOver) (asks : ¬ stage.IsAsking)
    (room : stage.event? ≠ none → outbox.channel.HasRoom) :
    ∃ stage' outbox', stage.advance? outbox = some (stage', outbox') := by
  have sends {event : Event} (own : stage.event? = some event) :
      outbox.send? event = some (outbox.push [event]) := by
    refine Outbox.send?_of_hasRoom listening (room ?_) event
    rw [own]
    exact Option.some_ne_none event
  cases stage with
  | calling | starting | listing => exact ⟨_, _, rfl⟩
  | awaiting | awaitingList => exact absurd trivial asks
  | ended => exact absurd (.inl rfl) unfinished
  | crashed => exact absurd (.inr rfl) unfinished
  | reporting | announcing => exact ⟨_, _, by rw [advance?, sends rfl]; rfl⟩
  | delivering token listed =>
    cases listed <;> exact ⟨_, _, by rw [advance?, sends rfl]; rfl⟩

theorem queue_advance? {stage stage' : Stage} {outbox outbox' : Outbox}
    (listening : outbox.channel.isOpen) (h : stage.advance? outbox = some (stage', outbox')) :
    outbox'.channel.isOpen ∧
      outbox'.channel.queue = outbox.channel.queue ++ stage.event?.toList := by
  obtain ⟨deed, own, does, shares, -⟩ := does_of_advance? h
  cases does with
  | call | ask | take =>
    cases shares
    exact ⟨listening, (List.append_nil _).symm⟩
  | answer | list => cases own
  | confirm | refuse | announce | load | fail =>
    obtain ⟨-, rfl⟩ := (Outbox.send?_eq_some_iff listening).1 shares
    exact ⟨listening, rfl⟩

/-! ## Sums over flows -/

def total (f : Stage → Nat) (stages : List Stage) : Nat :=
  stages.foldr (fun stage sum => f stage + sum) 0

theorem total_set {f : Stage → Nat} {stages : List Stage} {i : Nat} {stage : Stage}
    (h : stages[i]? = some stage) (other : Stage) :
    total f (stages.set i other) + f stage = total f stages + f other := by
  induction stages generalizing i with
  | nil => cases h
  | cons first stages ih =>
    cases i with
    | zero =>
      cases h
      simp only [List.set_cons_zero, total, List.foldr_cons]
      omega
    | succ i =>
      have rest := ih (i := i) h
      simp only [List.set_cons_succ, total, List.foldr_cons] at rest ⊢
      omega

theorem total_eraseIdx {f : Stage → Nat} {stages : List Stage} {i : Nat} {stage : Stage}
    (h : stages[i]? = some stage) : total f (stages.eraseIdx i) + f stage = total f stages := by
  induction stages generalizing i with
  | nil => cases h
  | cons first stages ih =>
    cases i with
    | zero =>
      cases h
      simp only [List.eraseIdx_cons_zero, total, List.foldr_cons]
      omega
    | succ i =>
      have rest := ih (i := i) h
      simp only [List.eraseIdx_cons_succ, total, List.foldr_cons] at rest ⊢
      omega

theorem total_concat (f : Stage → Nat) (stages : List Stage) (stage : Stage) :
    total f (stages ++ [stage]) = total f stages + f stage := by
  induction stages with
  | nil => simp [total]
  | cons first stages ih =>
    simp only [List.cons_append, total, List.foldr_cons] at ih ⊢
    omega

theorem exists_of_total_pos {f : Stage → Nat} {stages : List Stage} (h : 0 < total f stages) :
    ∃ (i : Nat) (stage : Stage), stages[i]? = some stage ∧ 0 < f stage := by
  induction stages with
  | nil => cases h
  | cons first stages ih =>
    by_cases positive : 0 < f first
    · exact ⟨0, first, rfl, positive⟩
    · simp only [total, List.foldr_cons] at h
      obtain ⟨i, stage, there, more⟩ := ih (by simp only [total]; omega)
      exact ⟨i + 1, stage, there, more⟩

end Stage

theorem Stage.owes_ofFlow_pos (flow : Flow) : 0 < (ofFlow flow).owes := by
  cases flow <;> simp [ofFlow, owes]

end ProjectClient

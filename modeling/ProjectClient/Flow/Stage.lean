import ProjectClient.ApiError
import ProjectClient.Flow.Channel

/-! A flow is one piece of work with the server: a refresh, or a change followed by a refresh. Its
life is a sequence of stages. At most stages the flow moves on by itself; it has to wait where a
call is unanswered or the channel is full. -/
namespace ProjectClient

inductive Flow where
  | refresh
  | create (name : String)
  | delete (target : PendingDelete)
deriving DecidableEq

inductive Call where
  | list
  | create (name : String)
  | delete (id : String)
deriving DecidableEq

inductive Outcome (α : Type) where
  | ok (result : α)
  | failed (error : ApiError)
  /-- The call never came back and took its flow with it. -/
  | crashed
deriving DecidableEq

def Outcome.ofExcept {α : Type} : Except ApiError α → Outcome α
  | .ok result => ok result
  | .error error => failed error

inductive Mutation where
  | create (name : String)
  | delete (id : String)
deriving DecidableEq

namespace Mutation

def call : Mutation → Call
  | create name => .create name
  | delete id => .delete id

def report (accepted : Bool) : Mutation → Event
  | create _ => if accepted then .projectCreated else .createFailed
  | delete _ => if accepted then .projectDeleted else .deleteFailed

end Mutation

inductive Stage where
  | calling (mutation : Mutation)
  | awaiting (mutation : Mutation)
  | reporting (mutation : Mutation) (accepted : Bool)
  | starting
  | announcing (token : Token)
  | listing (token : Token)
  | awaitingList (token : Token)
  /-- About to send the result of its refresh: the list, or nothing if the call failed. -/
  | delivering (token : Token) (listed : Option (List Project))
  | ended
  | crashed
deriving DecidableEq

namespace Stage

def ofFlow : Flow → Stage
  | .refresh => starting
  | .create name => calling (.create name)
  | .delete target => calling (.delete target.id)

def event? : Stage → Option Event
  | reporting mutation accepted => some (mutation.report accepted)
  | announcing token => some (.refreshStarted token)
  | delivering token (some projects) => some (.projectsLoaded token projects)
  | delivering token none => some (.refreshFailed token)
  | _ => none

def call? : Stage → Option Call
  | calling mutation => some mutation.call
  | listing _ => some .list
  | _ => none

def IsOver (stage : Stage) : Prop := stage = ended ∨ stage = crashed

instance (stage : Stage) : Decidable stage.IsOver :=
  inferInstanceAs (Decidable (stage = ended ∨ stage = crashed))

/-- The stage after a change was answered. The cause of a failure plays no part. -/
def answered (mutation : Mutation) : Outcome Unit → Stage
  | .ok _ => reporting mutation true
  | .failed _ => reporting mutation false
  | .crashed => crashed

def listed (token : Token) : Outcome (List Project) → Stage
  | .ok projects => delivering token (some projects)
  | .failed _ => delivering token none
  | .crashed => crashed

/-- The next stage when the flow moves by itself, or nothing while it has to wait or is over. -/
def advance? (outbox : Outbox) : Stage → Option (Stage × Outbox)
  | calling mutation => some (awaiting mutation, outbox)
  | awaiting _ => none
  | reporting mutation accepted =>
    (outbox.send? (mutation.report accepted)).map (if accepted then starting else ended, ·)
  | starting => some (announcing outbox.issue.1, outbox.issue.2)
  | announcing token => (outbox.send? (.refreshStarted token)).map (listing token, ·)
  | listing token => some (awaitingList token, outbox)
  | awaitingList _ => none
  | delivering token (some projects) =>
    (outbox.send? (.projectsLoaded token projects)).map (ended, ·)
  | delivering token none => (outbox.send? (.refreshFailed token)).map (ended, ·)
  | ended => none
  | crashed => none

/-- An upper bound for the moves that are left, answers included. -/
def rank : Stage → Nat
  | calling _ => 8
  | awaiting _ => 7
  | reporting .. => 6
  | starting => 5
  | announcing _ => 4
  | listing _ => 3
  | awaitingList _ => 2
  | delivering .. => 1
  | ended => 0
  | crashed => 0

theorem rank_answered_lt (mutation : Mutation) (outcome : Outcome Unit) :
    (answered mutation outcome).rank < (awaiting mutation).rank := by
  cases outcome <;> simp [answered, rank]

theorem rank_listed_lt (token : Token) (outcome : Outcome (List Project)) :
    (listed token outcome).rank < (awaitingList token).rank := by
  cases outcome <;> simp [listed, rank]

theorem rank_lt_of_advance? {outbox outbox' : Outbox} {stage stage' : Stage}
    (h : stage.advance? outbox = some (stage', outbox')) : stage'.rank < stage.rank := by
  cases stage with
  | calling | starting | listing =>
    simp only [advance?, Option.some.injEq, Prod.mk.injEq] at h
    rw [← h.1]
    simp [rank]
  | awaiting | awaitingList | ended | crashed => simp [advance?] at h
  | reporting mutation accepted =>
    simp only [advance?, Option.map_eq_some_iff, Prod.mk.injEq] at h
    obtain ⟨_, _, rfl, _⟩ := h
    cases accepted <;> simp [rank]
  | announcing =>
    simp only [advance?, Option.map_eq_some_iff, Prod.mk.injEq] at h
    obtain ⟨_, _, rfl, _⟩ := h
    simp [rank]
  | delivering token listed =>
    cases listed <;>
    · simp only [advance?, Option.map_eq_some_iff, Prod.mk.injEq] at h
      obtain ⟨_, _, rfl, _⟩ := h
      simp [rank]

end Stage

structure Api (m : Type → Type) where
  list : m (Outcome (List Project))
  mutate : Mutation → m (Outcome Unit)

/-- Runs one flow while no other moves, until it is over or finds the channel full. -/
def Stage.run {m : Type → Type} [Monad m] (api : Api m) (stage : Stage) (outbox : Outbox) :
    m (Stage × Outbox) :=
  match stage with
  | .awaiting mutation => do
    let outcome ← api.mutate mutation
    (Stage.answered mutation outcome).run api outbox
  | .awaitingList token => do
    let outcome ← api.list
    (Stage.listed token outcome).run api outbox
  | stage =>
    match _ : stage.advance? outbox with
    | some (next, outbox) => next.run api outbox
    | none => pure (stage, outbox)
termination_by stage.rank
decreasing_by
  · exact Stage.rank_answered_lt _ _
  · exact Stage.rank_listed_lt _ _
  · exact Stage.rank_lt_of_advance? (by assumption)

end ProjectClient

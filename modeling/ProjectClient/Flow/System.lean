import ProjectClient.Flow.Stage

/-! Any number of flows at once. `Flows.perform?` is one step of one party, and a list of actions is
an interleaving. `Schedule` picks one interleaving: every flow goes on as far as it can, and flows
that wait for a free place get one in the order in which they came. -/
namespace ProjectClient

structure Flows where
  outbox : Outbox
  stages : List Stage := []
  /-- The calls made, oldest first, each with the flow that made it. -/
  calls : List (Nat × Call) := []
  received : List Event := []

/-- A step of one party. Flows are numbered from 0 in the order of their start. -/
inductive Action where
  | start (flow : Flow)
  | advance (flow : Nat)
  | answer (flow : Nat) (outcome : Outcome Unit)
  | answerList (flow : Nat) (outcome : Outcome (List Project))
  | receive
  | close

namespace Flows

def withCapacity (capacity : Nat) : Flows where
  outbox := { channel := { capacity } }

def advance? (flows : Flows) (i : Nat) : Option Flows := do
  let stage ← flows.stages[i]?
  let (next, outbox) ← stage.advance? flows.outbox
  return { flows with
    outbox, stages := flows.stages.set i next
    calls := flows.calls ++ (stage.call?.map (i, ·)).toList }

def perform? (flows : Flows) : Action → Option Flows
  | .start flow => some { flows with stages := flows.stages ++ [.ofFlow flow] }
  | .advance i => flows.advance? i
  | .answer i outcome =>
    match flows.stages[i]? with
    | some (.awaiting mutation) =>
      some { flows with stages := flows.stages.set i (.answered mutation outcome) }
    | _ => none
  | .answerList i outcome =>
    match flows.stages[i]? with
    | some (.awaitingList token) =>
      some { flows with stages := flows.stages.set i (.listed token outcome) }
    | _ => none
  | .receive => do
    let (event, channel) ← flows.outbox.channel.receive?
    return { flows with
      outbox := { flows.outbox with channel }, received := flows.received ++ [event] }
  | .close =>
    some { flows with outbox := { flows.outbox with channel := flows.outbox.channel.close } }

def performAll? (flows : Flows) (actions : List Action) : Option Flows :=
  actions.foldlM perform? flows

def running (flows : Flows) : Nat :=
  flows.stages.countP fun stage => ¬ stage.IsOver

def rankAt (flows : Flows) (i : Nat) : Nat :=
  flows.stages[i]?.elim 0 Stage.rank

theorem rankAt_lt_of_advance? {flows next : Flows} {i : Nat} (h : flows.advance? i = some next) :
    next.rankAt i < flows.rankAt i := by
  simp only [advance?, Option.bind_eq_bind, Option.bind_eq_some_iff, Option.pure_def,
    Option.some.injEq] at h
  obtain ⟨stage, hs, ⟨stage', outbox⟩, ha, rfl⟩ := h
  have hi : i < flows.stages.length := (List.getElem?_eq_some_iff.1 hs).1
  simp only [rankAt, hs, List.getElem?_set_self hi, Option.elim_some]
  exact Stage.rank_lt_of_advance? ha

def exhaust (flows : Flows) (i : Nat) : Flows :=
  match _ : flows.advance? i with
  | some next => next.exhaust i
  | none => flows
termination_by flows.rankAt i
decreasing_by exact rankAt_lt_of_advance? (by assumption)

/-- The flow that still waits for the answer to a call. Calls are numbered from 0 in the order in
which they were made, and a flow waits for its latest call only. -/
def caller? (flows : Flows) (call : Nat) : Option Nat := do
  let (i, _) ← flows.calls[call]?
  let stage ← flows.stages[i]?
  match stage with
  | .awaiting _ | .awaitingList _ =>
    if (flows.calls.drop (call + 1)).any (·.1 == i) then none else some i
  | _ => none

end Flows

/-- The flows with a queue for free places of the channel. -/
structure Schedule where
  flows : Flows
  waiting : List Nat := []

namespace Schedule

def proceed (schedule : Schedule) (i : Nat) : Schedule :=
  let flows := schedule.flows.exhaust i
  let blocked := (flows.stages[i]?.bind Stage.event?).isSome
  { flows, waiting := if blocked then schedule.waiting ++ [i] else schedule.waiting }

def start (schedule : Schedule) (flow : Flow) : Schedule :=
  match schedule.flows.perform? (.start flow) with
  | some flows => { schedule with flows }.proceed schedule.flows.stages.length
  | none => schedule

/-- Answers a call by its number: with an error, or else with success. A call that nobody waits for
is left alone. -/
def resolve (schedule : Schedule) (call : Nat) (answer : Except ApiError (List Project)) :
    Schedule :=
  match schedule.flows.caller? call with
  | none => schedule
  | some i =>
    let action := match schedule.flows.stages[i]?, answer with
      | some (.awaitingList _), .ok projects => Action.answerList i (.ok projects)
      | some (.awaitingList _), .error e => .answerList i (.failed e)
      | _, .ok _ => .answer i (.ok ())
      | _, .error e => .answer i (.failed e)
    match schedule.flows.perform? action with
    | some flows => { schedule with flows }.proceed i
    | none => schedule

def receive (schedule : Schedule) : Schedule :=
  match schedule.flows.perform? .receive, schedule.waiting with
  | none, _ => schedule
  | some flows, [] => { schedule with flows }
  | some flows, i :: waiting => { flows, waiting : Schedule }.proceed i

def receiveMany (schedule : Schedule) (n : Nat) : Schedule :=
  (List.range n).foldl (fun schedule _ => schedule.receive) schedule

/-- Takes events until none is left. No flow sends more than three. -/
def drain (schedule : Schedule) : Schedule :=
  schedule.receiveMany
    (schedule.flows.outbox.channel.queue.length + 3 * schedule.flows.stages.length)

end Schedule

end ProjectClient

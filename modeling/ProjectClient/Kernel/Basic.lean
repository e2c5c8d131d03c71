import ProjectClient.Kernel.Command

/-! The kernel turns commands into state changes and flows. `execute` runs a flow to its end before
it answers; `dispatch` only starts one, and its reports wait in the channel until the next tick. -/
namespace ProjectClient

structure Kernel where
  state : State := {}
  outbox : Outbox := { channel := { capacity := 100 } }
  tasks : List Stage := []
  inFlight : Nat := 0

namespace Kernel

def isBusy (kernel : Kernel) : Bool :=
  0 < kernel.inFlight

def editDraft (kernel : Kernel) (edit : String → String) : Kernel :=
  { kernel with state := kernel.state.editDraft edit }

/-- Applies all queued events and answers with every status they wrote, oldest first. -/
def tick (kernel : Kernel) : Kernel × List Status :=
  let (state, trail) := kernel.state.applyTrail kernel.outbox.channel.queue
  let channel := { kernel.outbox.channel with queue := [] }
  ({ kernel with state, outbox := { kernel.outbox with channel } }, trail)

def spawn (kernel : Kernel) (flow : Flow) : Kernel :=
  { kernel with
    tasks := kernel.tasks ++ [.ofFlow flow], inFlight := kernel.inFlight + 1 }

def dispatch (kernel : Kernel) (command : Command) : Kernel :=
  let (state, flow?) := kernel.state.accept command
  flow?.elim { kernel with state } { kernel with state }.spawn

/-- Dispatches a command while there is nothing to run flows on. A flow that the command would start
is not started, and the user is told so. -/
def refuse (kernel : Kernel) (command : Command) (cause : String) : Kernel :=
  let (state, flow?) := kernel.state.accept command
  let told := state.apply (.userError s!"failed to start async runtime: {cause}")
  { kernel with state := if flow?.isSome then told else state }

def settle? (kernel : Kernel) (i : Nat) : Option Kernel := do
  let stage ← kernel.tasks[i]?
  if stage.IsOver then
    some { kernel with tasks := kernel.tasks.eraseIdx i, inFlight := kernel.inFlight - 1 }
  else none

variable {m : Type → Type} [Monad m]

/-- Runs the dispatched flows one after the other. Those that are over leave the count. -/
def runTasks (api : Api m) (kernel : Kernel) : m Kernel :=
  go kernel.tasks { kernel with tasks := [] }
where
  go : List Stage → Kernel → m Kernel
    | [], kernel => pure kernel
    | stage :: stages, kernel => do
      let (stage, outbox) ← stage.run api kernel.outbox
      let kernel := { kernel with outbox, tasks := kernel.tasks ++ [stage] }
      go stages ((kernel.settle? (kernel.tasks.length - 1)).getD kernel)

/-- Runs the flow of a command to its end and then ticks. There is no trail if the flow crashed, or
if it waits for a place in the full channel, which only a tick would give it. -/
def execute (api : Api m) (kernel : Kernel) (command : Command) :
    m (Kernel × Option (List Status)) := do
  let (state, flow?) := kernel.state.accept command
  let kernel := { kernel with state }
  match flow? with
  | none => pure (kernel.tick.1, some kernel.tick.2)
  | some flow =>
    let (stage, outbox) ← (Stage.ofFlow flow).run api kernel.outbox
    let kernel := { kernel with outbox }
    if stage = .ended then pure (kernel.tick.1, some kernel.tick.2) else pure (kernel, none)

end Kernel

end ProjectClient

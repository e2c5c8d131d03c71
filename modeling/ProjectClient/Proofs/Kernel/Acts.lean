import ProjectClient.Proofs.Kernel.Mirrors

/-! A client whose flows take turns, driven by one act after the other, and a server that keeps a
log of the calls made to it. -/
namespace ProjectClient

def Outcome.isFailed {α : Type} : Outcome α → Bool
  | failed _ => true
  | _ => false

structure Logged (σ : Type) where
  server : σ
  calls : List Call := []
  failures : Nat := 0
deriving DecidableEq

def Logged.add {σ : Type} (world : Logged σ) (call : Call) (isFailed : Bool) (server : σ) :
    Logged σ where
  server := server
  calls := world.calls ++ [call]
  failures := world.failures + isFailed.toNat

def Api.logged {σ : Type} (api : Api (StateM σ)) : Api (StateM (Logged σ)) where
  list world :=
    let (outcome, server) := api.list world.server
    (outcome, world.add .list outcome.isFailed server)
  mutate mutation world :=
    let (outcome, server) := api.mutate mutation world.server
    (outcome, world.add mutation.call outcome.isFailed server)

inductive Act where
  | execute (command : Command)
  /-- Starts the flow of a command and waits until it is over. -/
  | dispatch (command : Command)
  | tick
  | edit (edit : String → String)

namespace Kernel

variable {σ : Type} (api : Api (StateM σ)) (kernel : Kernel) (server : σ)

/-- The kernel after an act, the statuses that were answered and the server. There is nothing if a
command that is executed does not come to its end, or a flow waits for a place in the full
channel. -/
def act? : Act → Option (Kernel × List Status × σ)
  | .execute command =>
    let ((kernel, trail?), server) := kernel.execute api command server
    trail?.map fun trail => (kernel, trail, server)
  | .dispatch command =>
    let (kernel, server) := (kernel.dispatch command).runTasks api server
    if kernel.tasks = [] then some (kernel, [], server) else none
  | .tick => some (kernel.tick.1, kernel.tick.2, server)
  | .edit edit => some (kernel.editDraft edit, [], server)

def acts? (kernel : Kernel) (server : σ) : List Act → Option (Kernel × List Status × σ)
  | [] => some (kernel, [], server)
  | act :: acts => do
    let (kernel, trail, server) ← kernel.act? api server act
    let (last, later, server) ← kernel.acts? server acts
    return (last, trail ++ later, server)

variable {api kernel server}

theorem acts?_cons {act : Act} {next : Kernel} {trail : List Status} {server' : σ}
    (h : kernel.act? api server act = some (next, trail, server')) (acts : List Act) :
    kernel.acts? api server (act :: acts) =
      (next.acts? api server' acts).map
        fun (last, later, world) => (last, trail ++ later, world) := by
  rw [acts?, h]
  dsimp only [Option.bind_eq_bind, Option.bind_some]
  cases next.acts? api server' acts <;> rfl

end Kernel

end ProjectClient

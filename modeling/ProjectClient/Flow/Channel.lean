import ProjectClient.Event

/-! The bounded event channel between the flows and the owner of the state, and the counter of
refresh tokens that the flows share. -/
namespace ProjectClient

structure Channel where
  capacity : Nat
  queue : List Event := []
  isOpen : Bool := true

namespace Channel

def HasRoom (channel : Channel) : Prop :=
  channel.queue.length < channel.capacity

instance (channel : Channel) : Decidable channel.HasRoom :=
  inferInstanceAs (Decidable (channel.queue.length < channel.capacity))

/-- The channel after a send, or nothing if the sender has to wait for a free place. An event sent
to a closed channel is lost. -/
def send? (channel : Channel) (event : Event) : Option Channel :=
  if channel.isOpen then
    if channel.HasRoom then some { channel with queue := channel.queue ++ [event] } else none
  else some channel

def receive? (channel : Channel) : Option (Event × Channel) :=
  match channel.queue with
  | [] => none
  | event :: rest => some (event, { channel with queue := rest })

def close (channel : Channel) : Channel :=
  { channel with queue := [], isOpen := false }

end Channel

structure Outbox where
  channel : Channel
  /-- The number of refresh tokens handed out; the tokens are 1, 2, 3 and so on. -/
  issued : Nat := 0

def Outbox.send? (outbox : Outbox) (event : Event) : Option Outbox :=
  (outbox.channel.send? event).map fun channel => { outbox with channel }

def Outbox.issue (outbox : Outbox) : Token × Outbox :=
  (outbox.issued + 1, { outbox with issued := outbox.issued + 1 })

end ProjectClient

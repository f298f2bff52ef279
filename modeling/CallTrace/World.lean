import CallTrace.Model
import CallTrace.Pipeline.Event

/-!
# What stages share

The models that assemblers fill, and the queues that take events from one pipeline to another. A
queue hands events out in the order in which they were sent. It ends when it is empty and its sender
is gone.
-/

namespace CallTrace

/-- A queue of events. -/
structure Queue where
  /-- The events sent and not yet received, the oldest one first. -/
  waiting : List Pipeline.Event := []
  /-- How many events may wait before a sender has to. -/
  capacity : Nat
  hasSender : Bool := true
  hasReceiver : Bool := true
  deriving DecidableEq, Repr

namespace Queue

/-- Whether an event can be sent at once. -/
def hasRoom (queue : Queue) : Bool := queue.waiting.length < queue.capacity

/-- What becomes of the queue when an event is sent. A sender that finds no room waits for it, and
then the event comes last as well. -/
def send (queue : Queue) (event : Pipeline.Event) : Queue :=
  { queue with waiting := queue.waiting ++ [event] }

/-- What a receiver finds. -/
inductive Received where
  | event (event : Pipeline.Event)
  /-- Nothing yet. -/
  | nothing
  /-- Nothing, and nothing will come. -/
  | ended
  deriving DecidableEq, Repr

/-- Takes the oldest event. -/
def receive (queue : Queue) : Received × Queue :=
  match queue.waiting with
  | event :: waiting => (.event event, { queue with waiting })
  | [] => (if queue.hasSender then .nothing else .ended, queue)

end Queue

/-- What stages share. -/
structure World where
  models : Model.Models := {}
  /-- The present, as far as the models are concerned. -/
  now : Instant
  /-- The queues by their numbers. -/
  queues : List Queue := []

namespace World

/-- The queue with a number. A number without one stands for a queue that nobody uses any more. -/
def queue (world : World) (number : Nat) : Queue :=
  world.queues[number]?.getD { capacity := 0, hasSender := false, hasReceiver := false }

/-- Changes a queue. -/
def modifyQueue (number : Nat) (f : Queue → Queue) (world : World) : World :=
  { world with queues := world.queues.modify number f }

/-- Opens a queue and gives it a number. -/
def openQueue (world : World) (queue : Queue) : Nat × World :=
  (world.queues.length, { world with queues := world.queues ++ [queue] })

/-- Changes the models. -/
def modifyModels (f : Instant → Model.Models → Model.Models) (world : World) : World :=
  { world with models := f world.now world.models }

end World

end CallTrace

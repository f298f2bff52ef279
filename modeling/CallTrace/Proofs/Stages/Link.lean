import CallTrace.Proofs.Pipeline.Delivery
import CallTrace.Readers
import Mathlib.Logic.Relation

/-!
# A queue between two pipelines

Upstream a queue sink is handed one event after the other and gives the sending end up when its
pipeline terminates; downstream the reader of the queue takes turns until it finds that the queue
has ended. Both sides work at the same time, and so do the other stages of either pipeline.

`Link` is the state of both sides and `Link.Step` a step of one of them, whichever comes next; a
sink that finds the queue full waits. What is preserved by every step is `Link.Sound`
(`Link.Sound.step`): the events given out downstream, those in the queue and those not yet sent are
in this order the events that were to be sent. `Link.neither_loses_nor_reorders` draws the
conclusions.
-/

namespace CallTrace

open Pipeline

/-! ## Queues of a world -/

namespace World

/-- A queue that has its receiver is one of the world's. -/
theorem queue_modifyQueue {world : World} {number : Nat} (f : Queue → Queue)
    (h : (world.queue number).hasReceiver = true) :
    (world.modifyQueue number f).queue number = f (world.queue number) := by
  unfold queue modifyQueue at *
  cases hq : world.queues[number]? with
  | none => simp [hq] at h
  | some queue => simp [hq]

theorem queue_openQueue (world : World) (queue : Queue) :
    (world.openQueue queue).2.queue (world.openQueue queue).1 = queue := by
  simp [openQueue, World.queue]

end World

/-! ## Two pipelines at work -/

/-- Two pipelines with a queue between them, as far as the queue is concerned. -/
structure Link where
  world : World
  sink : QueueSink
  reader : ChannelReader
  /-- The events that the sink has yet to be handed. -/
  unsent : List Event
  /-- The events that the reader has given out. -/
  emitted : List Event := []
  /-- Whether the reader has found that the queue has ended. -/
  hasReturned : Bool := false

namespace Link

/-- Two pipelines before their start. -/
def start (capacity : Nat) (types : List EventType) (events : List Event) (world : World) : Link :=
  let ((sink, reader), world) := world.linkPipelines capacity types
  { world, sink, reader, unsent := events }

/-- The queue as the reader sees it. -/
def queue (link : Link) : Queue := link.world.queue link.reader.queue

/-- Gives an event out downstream, if the reader has such a port and it declares the event's
type. -/
def emit (output : String) (event : Event) (link : Link) : Bool × Link :=
  match (Port.find? link.reader.ports output .output).filter (·.accepts event.type) with
  | some _ => (true, { link with emitted := link.emitted ++ [event] })
  | none => (false, link)

/-- Runs a callback of the sink, which has no outputs, or of the reader. -/
def perform {α : Type} (link : Link) (callback : Callback World α) : α × Link :=
  callback.run (·.world) (fun world link => { link with world }) emit link

/-- The sink is handed an event. -/
def send (link : Link) (event : Event) (unsent : List Event) : Link :=
  let ((_, sink), link) := link.perform (link.sink.onEvent event)
  { link with sink, unsent }

/-- The upstream pipeline terminates. -/
def close (link : Link) : Link :=
  let ((_, sink), link) := link.perform link.sink.onTerminate
  { link with sink }

/-- The reader takes a turn; it goes on unless the queue has ended. -/
def turn (link : Link) : Link :=
  let turned := link.perform link.reader.turn
  { turned.2 with hasReturned := turned.1 == .ended }

/-- Sending waits while the queue is full. -/
def isBlocked (link : Link) : Bool :=
  let queue := link.world.queue link.sink.queue
  link.sink.isOpen && queue.hasReceiver && !queue.hasRoom

/-- One step of either side. Upstream terminates only when everything was sent, and downstream does
not before the reader has returned. -/
inductive Step : Link → Link → Prop where
  | send {link : Link} {event : Event} {unsent : List Event}
      (hunsent : link.unsent = event :: unsent) (hfree : link.isBlocked = false) :
      Step link (link.send event unsent)
  | close {link : Link} (hunsent : link.unsent = []) : Step link link.close
  | turn {link : Link} (hreads : link.hasReturned = false) : Step link link.turn
  /-- Other stages share the world with the two, but not the queue. -/
  | other {link : Link} {world : World} (hqueue : world.queue link.reader.queue = link.queue) :
      Step link { link with world }

/-- From a state to another one in any number of steps. -/
abbrev Reaches : Link → Link → Prop := Relation.ReflTransGen Step

/-! ## What one step does -/

variable {link : Link} {event : Event} {waiting unsent : List Event}

/-- Callbacks change the world and what was given out, and nothing else. -/
theorem perform_spares {α : Type} (callback : Callback World α) (link : Link) :
    ∃ world emitted, (link.perform callback).2 = { link with world, emitted } := by
  unfold perform
  induction callback generalizing link with
  | done result => exact ⟨link.world, link.emitted, rfl⟩
  | emit output event next ih =>
    obtain ⟨world, emitted, h⟩ := ih (link.emit output event).1 (link.emit output event).2
    refine ⟨world, emitted, h.trans ?_⟩
    unfold emit
    split <;> rfl
  | update change next ih =>
    obtain ⟨world, emitted, h⟩ := ih { link with world := change link.world }
    exact ⟨world, emitted, h⟩
  | observe next ih => exact ih link.world link

theorem perform_bind {α β : Type} (link : Link) (callback : Callback World α)
    (f : α → Callback World β) :
    link.perform (callback >>= f) = (link.perform callback).2.perform (f (link.perform callback).1) :=
  Callback.run_bind callback f link

/-- An open sink hands the event to the queue, behind those that wait. -/
theorem send_of_open (hopen : link.sink.isOpen = true)
    (hreceiver : (link.world.queue link.sink.queue).hasReceiver = true) :
    link.send event unsent
      = { link with world := link.world.modifyQueue link.sink.queue (·.send event), unsent } := by
  have h : link.perform (link.sink.onEvent event) = ((.returned, link.sink),
      { link with world := link.world.modifyQueue link.sink.queue (·.send event) }) := by
    unfold QueueSink.onEvent
    rw [if_neg (by simp [hopen])]
    show link.perform (if _ then _ else _) = _
    rw [if_neg (by simp [hreceiver])]
    rfl
  rw [send, h]

/-- A sink whose pipeline terminates takes the sender from the queue. -/
theorem close_eq (link : Link) :
    link.close = { link with
      world := link.world.modifyQueue link.sink.queue ({ · with hasSender := false })
      sink := { link.sink with isOpen := false } } := rfl

theorem emit_of_accepts (link : Link)
    (h : (Port.output ChannelReader.output link.reader.types).accepts event.type = true) :
    link.emit ChannelReader.output event
      = (true, { link with emitted := link.emitted ++ [event] }) := by
  have hport : Port.find? link.reader.ports ChannelReader.output .output
      = some (.output ChannelReader.output link.reader.types) := rfl
  simp [emit, hport, Option.filter, h]

/-- The reader finds the oldest event and gives it out. -/
theorem perform_turn_of_cons (hwaiting : link.queue.waiting = event :: waiting) :
    link.perform link.reader.turn = (.event event,
      (emit ChannelReader.output event { link with
        world := link.world.modifyQueue link.reader.queue fun _ =>
          { link.queue with waiting } }).2) := by
  have hreceive : (link.world.queue link.reader.queue).receive
      = (.event event, { link.queue with waiting }) := by
    show link.queue.receive = _
    rw [Queue.receive, hwaiting]
  simp only [perform, ChannelReader.turn, Callback.run, hreceive]

/-- The reader finds nothing, or that the queue has ended when the sender is gone. -/
theorem perform_turn_of_nil (hwaiting : link.queue.waiting = []) :
    link.perform link.reader.turn = (if link.queue.hasSender then .nothing else .ended, link) := by
  have hreceive : (link.world.queue link.reader.queue).receive
      = (if link.queue.hasSender then .nothing else .ended, link.queue) := by
    show link.queue.receive = _
    rw [Queue.receive, hwaiting]
  simp only [perform, ChannelReader.turn, Callback.run, hreceive]
  cases link.queue.hasSender <;> rfl

/-! ## What every step preserves -/

/-- The state of two pipelines that are sending these events through this queue. -/
structure Sound (capacity : Nat) (types : List EventType) (events : List Event) (queue : Queue)
    (link : Link) : Prop where
  queue_eq : link.queue = queue
  conserved : link.emitted ++ queue.waiting ++ link.unsent = events
  capacity_eq : queue.capacity = capacity
  length_le : queue.waiting.length ≤ capacity
  hasReceiver : queue.hasReceiver = true
  hasSender : queue.hasSender = link.sink.isOpen
  sink_queue : link.sink.queue = link.reader.queue
  reader_types : link.reader.types = types
  isOpen : link.unsent ≠ [] → link.sink.isOpen = true
  ended : link.hasReturned = true → queue.waiting = [] ∧ link.sink.isOpen = false

namespace Sound

variable {capacity : Nat} {types : List EventType} {events : List Event} {queue : Queue}

theorem start (capacity : Nat) (types : List EventType) (events : List Event) (world : World) :
    Sound capacity types events { capacity } (.start capacity types events world) where
  queue_eq := world.queue_openQueue { capacity }
  conserved := rfl
  capacity_eq := rfl
  length_le := Nat.zero_le _
  hasReceiver := rfl
  hasSender := rfl
  sink_queue := rfl
  reader_types := rfl
  isOpen _ := rfl
  ended h := by cases h

theorem world_queue_sink (h : Sound capacity types events queue link) :
    link.world.queue link.sink.queue = queue := by
  rw [h.sink_queue]
  exact h.queue_eq

/-- What a change of the queue makes of it. -/
theorem queue_modifyQueue (h : Sound capacity types events queue link) (f : Queue → Queue) :
    (link.world.modifyQueue link.reader.queue f).queue link.reader.queue = f queue := by
  rw [World.queue_modifyQueue, ← h.queue_eq]
  · rfl
  · rw [← h.hasReceiver, ← h.queue_eq]
    rfl

/-- Everything that waits may leave the reader. -/
theorem accepts (h : Sound capacity types events queue link)
    (hevents : ∀ event ∈ events, (Port.output ChannelReader.output types).accepts event.type)
    (hmem : event ∈ queue.waiting) :
    (Port.output ChannelReader.output link.reader.types).accepts event.type = true := by
  rw [h.reader_types]
  refine hevents event ?_
  rw [← h.conserved]
  simp [hmem]

theorem isBlocked_eq (h : Sound capacity types events queue link) :
    link.isBlocked = (link.sink.isOpen && !decide (queue.waiting.length < capacity)) := by
  simp [isBlocked, h.world_queue_sink, h.hasReceiver, Queue.hasRoom, h.capacity_eq]

/-- An event moves from those not yet sent to the end of the queue. -/
theorem send (h : Sound capacity types events queue link) (hunsent : link.unsent = event :: unsent)
    (hfree : link.isBlocked = false) :
    Sound capacity types events (queue.send event) (link.send event unsent) := by
  have hopen := h.isOpen (by simp [hunsent])
  have hroom : queue.waiting.length < capacity := by
    rw [h.isBlocked_eq] at hfree
    simpa [hopen] using hfree
  rw [send_of_open hopen (by rw [h.world_queue_sink, h.hasReceiver])]
  exact {
    queue_eq := by rw [h.sink_queue]; exact h.queue_modifyQueue _
    conserved := by rw [← h.conserved, hunsent]; simp [Queue.send]
    capacity_eq := h.capacity_eq
    length_le := by simpa [Queue.send] using Nat.succ_le_of_lt hroom
    hasReceiver := h.hasReceiver
    hasSender := h.hasSender
    sink_queue := h.sink_queue
    reader_types := h.reader_types
    isOpen := fun _ => hopen
    -- nothing is left to send when the reader has returned
    ended := fun hreturned => by rw [(h.ended hreturned).2] at hopen; cases hopen }

/-- The sender goes. -/
theorem close (h : Sound capacity types events queue link) (hunsent : link.unsent = []) :
    Sound capacity types events { queue with hasSender := false } link.close := by
  rw [close_eq]
  exact {
    queue_eq := by rw [h.sink_queue]; exact h.queue_modifyQueue _
    conserved := h.conserved
    capacity_eq := h.capacity_eq
    length_le := h.length_le
    hasReceiver := h.hasReceiver
    hasSender := rfl
    sink_queue := h.sink_queue
    reader_types := h.reader_types
    isOpen := fun hne => absurd hunsent hne
    ended := fun hreturned => ⟨(h.ended hreturned).1, rfl⟩ }

/-- The oldest event moves from the queue to those given out. -/
theorem turn_of_cons (h : Sound capacity types events queue link)
    (hevents : ∀ event ∈ events, (Port.output ChannelReader.output types).accepts event.type)
    (hwaiting : queue.waiting = event :: waiting) :
    Sound capacity types events { queue with waiting } link.turn := by
  have hconserved := h.conserved
  have hlength := h.length_le
  rw [hwaiting] at hconserved hlength
  rw [Link.turn, perform_turn_of_cons (by rw [h.queue_eq, hwaiting]), h.queue_eq, emit_of_accepts]
  · exact {
      queue_eq := h.queue_modifyQueue _
      conserved := by rw [← hconserved]; simp
      capacity_eq := h.capacity_eq
      length_le := Nat.le_of_succ_le hlength
      hasReceiver := h.hasReceiver
      hasSender := h.hasSender
      sink_queue := h.sink_queue
      reader_types := h.reader_types
      isOpen := h.isOpen
      ended := fun hreturned => by cases hreturned }
  · exact h.accepts hevents (by simp [hwaiting])

/-- With nothing in the queue, the reader polls again or, when the sender is gone, returns. -/
theorem turn_of_nil (h : Sound capacity types events queue link) (hwaiting : queue.waiting = []) :
    Sound capacity types events queue link.turn
      ∧ (link.turn.hasReturned = true ↔ link.sink.isOpen = false) := by
  rw [Link.turn, perform_turn_of_nil (by rw [h.queue_eq, hwaiting]), h.queue_eq, h.hasSender]
  have hreturned : ((if link.sink.isOpen then Queue.Received.nothing else .ended) == .ended) = true
      ↔ link.sink.isOpen = false := by
    cases link.sink.isOpen <;> decide
  exact ⟨{ h with ended := fun hended => ⟨hwaiting, hreturned.mp hended⟩ }, hreturned⟩

/-- **Every step of either side keeps the state sound.** -/
theorem step {next : Link} (h : Sound capacity types events queue link)
    (hevents : ∀ event ∈ events, (Port.output ChannelReader.output types).accepts event.type)
    (hstep : Step link next) : ∃ queue, Sound capacity types events queue next := by
  cases hstep with
  | send hunsent hfree => exact ⟨_, h.send hunsent hfree⟩
  | close hunsent => exact ⟨_, h.close hunsent⟩
  | turn _ =>
    cases hwaiting : queue.waiting with
    | nil => exact ⟨_, (h.turn_of_nil hwaiting).1⟩
    | cons event waiting => exact ⟨_, h.turn_of_cons hevents hwaiting⟩
  | other hqueue => exact ⟨queue, { h with queue_eq := hqueue.trans h.queue_eq }⟩

theorem reaches {last : Link} (h : Sound capacity types events queue link)
    (hevents : ∀ event ∈ events, (Port.output ChannelReader.output types).accepts event.type)
    (hreaches : Reaches link last) : ∃ queue, Sound capacity types events queue last := by
  induction hreaches with
  | refl => exact ⟨queue, h⟩
  | tail _ hstep ih =>
    obtain ⟨_, hsound⟩ := ih
    exact hsound.step hevents hstep

/-- When the reader has returned, it has given everything out. -/
theorem emitted_of_returned (h : Sound capacity types events queue link)
    (hreturned : link.hasReturned = true) : link.emitted = events := by
  obtain ⟨hwaiting, hclosed⟩ := h.ended hreturned
  by_cases hunsent : link.unsent = []
  · rw [← h.conserved, hwaiting, hunsent]
    simp
  · rw [h.isOpen hunsent] at hclosed
    cases hclosed

/-- **The two sides never wait for each other**, provided that the queue can hold an event at all:
from every sound state the reader can come to return. -/
theorem exists_returned (h : Sound capacity types events queue link) (hcapacity : 0 < capacity)
    (hevents : ∀ event ∈ events, (Port.output ChannelReader.output types).accepts event.type) :
    ∃ last, Reaches link last ∧ last.hasReturned = true := by
  -- an event is moved twice, into the queue and out of it
  induction hn : 2 * link.unsent.length + queue.waiting.length using Nat.strongRecOn
    generalizing link queue with
  | ind n ih =>
    by_cases hreturned : link.hasReturned = true
    · exact ⟨link, .refl, hreturned⟩
    have hturn : Step link link.turn := .turn (by simpa using hreturned)
    cases hwaiting : queue.waiting with
    | cons event waiting =>
      have hunsent : link.turn.unsent = link.unsent := by
        obtain ⟨_, _, hspares⟩ := perform_spares link.reader.turn link
        rw [Link.turn, hspares]
      obtain ⟨last, hlast, hended⟩ := ih _ (by rw [hunsent]; simp [← hn, hwaiting])
        (h.turn_of_cons hevents hwaiting) rfl
      exact ⟨last, hlast.head hturn, hended⟩
    | nil =>
      cases hunsent : link.unsent with
      | cons event unsent =>
        have hfree : link.isBlocked = false := by simp [h.isBlocked_eq, hwaiting, hcapacity]
        obtain ⟨last, hlast, hended⟩ := ih _ (by
          simp only [Link.send, ← hn, hunsent, hwaiting, Queue.send, List.length_cons,
            List.length_append, List.length_nil]
          omega) (h.send hunsent hfree) rfl
        exact ⟨last, hlast.head (.send hunsent hfree), hended⟩
      | nil =>
        have hclosed := h.close hunsent
        have hended := ((hclosed.turn_of_nil hwaiting).2).mpr rfl
        have hopen : link.close.hasReturned = false := by simpa [close_eq] using hreturned
        exact ⟨link.close.turn, .head (.close hunsent) (.single (.turn hopen)), hended⟩

end Sound

/-! ## Whole runs -/

/-- Turns of the reader, one after the other, are steps, and take out what waits. -/
theorem Sound.receive {capacity : Nat} {types : List EventType} {events : List Event}
    {queue : Queue} (h : Sound capacity types events queue link)
    (hevents : ∀ event ∈ events, (Port.output ChannelReader.output types).accepts event.type)
    (hreads : link.hasReturned = false) (count : Nat) :
    Reaches link (link.perform (link.reader.receive count)).2
      ∧ Sound capacity types events { queue with waiting := queue.waiting.drop count }
        (link.perform (link.reader.receive count)).2 := by
  induction count generalizing link queue with
  | zero => exact ⟨.refl, h⟩
  | succ count ih =>
    rw [ChannelReader.receive, perform_bind]
    cases hwaiting : queue.waiting with
    | nil =>
      rw [perform_turn_of_nil (by rw [h.queue_eq, hwaiting]), List.drop_nil, ← hwaiting]
      cases link.queue.hasSender <;> exact ⟨.refl, h⟩
    -- a turn that finds an event is a step after which the reader goes on
    | cons event waiting =>
      obtain ⟨world, emitted, hspares⟩ := perform_spares link.reader.turn link
      have hfound := perform_turn_of_cons (by rw [h.queue_eq, hwaiting])
      have hturn : link.turn = (link.perform link.reader.turn).2 := by
        rw [Link.turn, hspares, hfound, hreads]
        rfl
      have hsound := h.turn_of_cons hevents hwaiting
      have hstep : Step link link.turn := .turn hreads
      rw [hturn, hspares] at hstep hsound
      rw [hspares, hfound]
      obtain ⟨hreaches, hlast⟩ := ih hsound hreads
      exact ⟨.head hstep hreaches, hlast⟩

/-- **A queue between two pipelines neither loses nor duplicates nor reorders events.** However the
steps of the two sides come one after the other, the events given out, those in the queue and those
not yet sent are in this order the events to be sent, and no more of them wait than the queue may
hold. When the reader returns it has given out all of them in order, and it can always still come to
that. -/
theorem neither_loses_nor_reorders {capacity : Nat} (hcapacity : 0 < capacity)
    {types : List EventType} {events : List Event}
    (hevents : ∀ event ∈ events, (Port.output ChannelReader.output types).accepts event.type)
    {world : World} {link : Link} (h : Reaches (start capacity types events world) link) :
    link.emitted ++ link.queue.waiting ++ link.unsent = events
      ∧ link.queue.waiting.length ≤ capacity
      ∧ (link.hasReturned = true → link.emitted = events)
      ∧ ∃ last, Reaches link last ∧ last.hasReturned = true := by
  obtain ⟨queue, hsound⟩ := (Sound.start capacity types events world).reaches hevents h
  obtain rfl := hsound.queue_eq
  exact ⟨hsound.conserved, hsound.length_le, hsound.emitted_of_returned,
    hsound.exists_returned hcapacity hevents⟩

/-- Branching decisions, one after the other. -/
def decisions (count : Nat) : List Event :=
  (List.range count).map fun n => .record (.branching ⟨.ofNat n, .ofNat n, 0⟩)

/-- Of five decisions on their way through a queue for two, two were sent and one came out. -/
theorem conserved_on_the_way :
    (0 < 2 ∧ ∀ event ∈ decisions 5,
        (Port.output ChannelReader.output [.monitoringRecord]).accepts event.type)
      ∧ ∃ link, Reaches (start 2 [.monitoringRecord] (decisions 5) { now := default }) link
        ∧ link.emitted = (decisions 5).take 1 ∧ link.unsent = (decisions 5).drop 2
        ∧ link.emitted ++ link.queue.waiting ++ link.unsent = decisions 5
        ∧ ∃ last, Reaches link last ∧ last.hasReturned = true := by
  have hevents : ∀ event ∈ decisions 5,
      (Port.output ChannelReader.output [.monitoringRecord]).accepts event.type := by decide
  have hreaches : Reaches (start 2 [.monitoringRecord] (decisions 5) { now := default })
      (((start 2 [.monitoringRecord] (decisions 5) { now := default }).send
        (.record (.branching ⟨0, 0, 0⟩)) ((decisions 5).drop 1)).send
        (.record (.branching ⟨1, 1, 0⟩)) ((decisions 5).drop 2)).turn :=
    .head (.send rfl rfl) (.head (.send rfl rfl) (.single (.turn rfl)))
  obtain ⟨hconserved, -, -, hreturns⟩ := neither_loses_nor_reorders (by decide) hevents hreaches
  exact ⟨⟨by decide, hevents⟩, _, hreaches, rfl, rfl, hconserved, hreturns⟩

/-- Reading at one go is such a run; it gives out everything that waits. -/
theorem read_gives_out_waiting {capacity : Nat} {types : List EventType} {events : List Event}
    (hevents : ∀ event ∈ events, (Port.output ChannelReader.output types).accepts event.type)
    {world : World} {link : Link} (h : Reaches (start capacity types events world) link)
    (hreads : link.hasReturned = false) (stage : StageId) :
    let read := link.perform (link.reader.read { stage, isTerminated := false })
    read.1.1 = .returned ∧ Reaches link read.2 ∧ read.2.queue.waiting = []
      ∧ read.2.emitted = link.emitted ++ link.queue.waiting := by
  obtain ⟨queue, hsound⟩ := (Sound.start capacity types events world).reaches hevents h
  obtain ⟨hreaches, hlast⟩ := hsound.receive hevents hreads queue.waiting.length
  have hread : link.perform (link.reader.read { stage, isTerminated := false })
      = ((.returned, link.reader),
        (link.perform (link.reader.receive queue.waiting.length)).2) := by
    have hlength : queue.waiting.length = (link.world.queue link.reader.queue).waiting.length :=
      congrArg (·.waiting.length) hsound.queue_eq.symm
    rw [hlength]
    exact perform_bind link (link.reader.receive (link.world.queue link.reader.queue).waiting.length)
      fun _ => pure (Ending.returned, link.reader)
  obtain ⟨_, _, hspares⟩ := perform_spares (link.reader.receive queue.waiting.length) link
  have hunsent : (link.perform (link.reader.receive queue.waiting.length)).2.unsent
      = link.unsent := by
    rw [hspares]
  have hconserved := hlast.conserved
  rw [hunsent, List.drop_length, List.append_nil, ← hsound.conserved] at hconserved
  rw [hread]
  refine ⟨rfl, hreaches, ?_, ?_⟩
  · rw [hlast.queue_eq]
    exact List.drop_length
  · rw [hsound.queue_eq]
    exact List.append_cancel_right hconserved

end Link

end CallTrace

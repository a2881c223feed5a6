import PhasedInduction.Event.Basic

/-!
# Event bus

A bus broadcasts events to everyone who listens.  Every event emitted while somebody
listens is stored; a receiver is a position in the sequence of stored events.  Only the
last events can still be read, as many as the bus has slots.  A receiver that has more
than that unread learns how many it lost and goes on at the oldest one that is kept.

A session receiver reads the same sequence and hands on the events of one session.

Main results:

- Theorem {lit}`EventBus.emit_fst`: how many receivers an event reaches.
- Theorem {lit}`EventBus.recv_eq_message_iff`: when a receiver reads an event, and which.
- Theorem {lit}`EventBus.le_slotsFor` and {lit}`EventBus.slotsFor_lt`: a bus has at least as many
  slots as its capacity, and less than twice as many.
-/

namespace PhasedInduction

/-- The events stored so far, and who takes part. -/
structure EventBus where
  /-- How many of the last stored events can be read. -/
  slots : Nat
  /-- The events emitted while somebody listened, in order. -/
  stored : Array Event := #[]
  /-- How many receivers are alive. -/
  receivers : Nat := 0
  /-- How many handles for emitting are alive. -/
  handles : Nat := 1
  /-- How many events were emitted, stored or not. -/
  emitted : Nat := 0
deriving Repr

/-- The position of the next stored event to read. -/
structure Receiver where
  next : Nat
deriving DecidableEq, Repr

/-- What a receiver gets. -/
inductive Received where
  | message (event : Event)
  | pending
  | closed
  | lagged (lost : Nat)
deriving DecidableEq, Repr

namespace EventBus

/-! ## Capacity -/

/-- The number of slots for a capacity: the least power of two that is not below. -/
def slotsFor (capacity : Nat) : Nat :=
  if capacity ≤ 1 then 1 else Nat.pow 2 ((capacity - 1).log2 + 1)

/-- A bus has at least as many slots as its capacity. -/
theorem le_slotsFor (capacity : Nat) : capacity ≤ slotsFor capacity := by
  unfold slotsFor
  split
  · next h => exact h
  · next h =>
    have hlt : capacity - 1 < Nat.pow 2 ((capacity - 1).log2 + 1) := Nat.lt_log2_self
    omega

/-- A bus has less than twice as many slots as its capacity. -/
theorem slotsFor_lt {capacity : Nat} (h : capacity ≠ 0) :
    slotsFor capacity < 2 * capacity := by
  unfold slotsFor
  split
  · omega
  · next hgt =>
    have hle : Nat.pow 2 (capacity - 1).log2 ≤ capacity - 1 := Nat.log2_self_le (by omega)
    have hsucc : Nat.pow 2 ((capacity - 1).log2 + 1) = Nat.pow 2 (capacity - 1).log2 * 2 := rfl
    omega

/-- The largest capacity of a bus. -/
def largestCapacity : Nat := 9223372036854775807

/-- A new bus; there is none without capacity, and none above the largest one. -/
def withCapacity? (capacity : Nat) : Option EventBus :=
  if capacity = 0 ∨ largestCapacity < capacity then none else some { slots := slotsFor capacity }

/-- A new bus of the usual capacity. -/
def standard : EventBus := { slots := slotsFor 256 }

/-! ## Emitting and subscribing -/

/-- Emit an event: the number of receivers it reaches, and the bus afterwards.  Without
receivers it is counted but not stored. -/
def emit (bus : EventBus) (event : Event) : Nat × EventBus :=
  if bus.receivers = 0 then (0, { bus with emitted := bus.emitted + 1 })
  else (bus.receivers,
    { bus with stored := bus.stored.push event, emitted := bus.emitted + 1 })

/-- Emit events in order. -/
def emitAll (bus : EventBus) (events : List Event) : EventBus :=
  events.foldl (fun bus event => (bus.emit event).2) bus

/-- An event reaches all receivers that are alive. -/
theorem emit_fst (bus : EventBus) (event : Event) : (bus.emit event).1 = bus.receivers := by
  unfold emit
  split
  · next h => exact h.symm
  · rfl

/-- A receiver for every event from now on. -/
def subscribe (bus : EventBus) : EventBus × Receiver :=
  ({ bus with receivers := bus.receivers + 1 }, ⟨bus.stored.size⟩)

/-- One receiver less. -/
def dropReceiver (bus : EventBus) : EventBus := { bus with receivers := bus.receivers - 1 }

/-- One more handle for emitting. -/
def cloneHandle (bus : EventBus) : EventBus := { bus with handles := bus.handles + 1 }

/-- One handle for emitting less. -/
def dropHandle (bus : EventBus) : EventBus := { bus with handles := bus.handles - 1 }

/-- The text that shows the state of a bus. -/
def display (bus : EventBus) : String :=
  "EventBus \x7b subscribers: " ++ toString bus.receivers ++ ", emitted: "
    ++ toString bus.emitted ++ " \x7d"

/-! ## Receiving -/

/-- The number of stored events that a receiver has not read. -/
def unread (bus : EventBus) (r : Receiver) : Nat := bus.stored.size - r.next

/-- What a receiver gets next, and the receiver afterwards. -/
def recv (bus : EventBus) (r : Receiver) : Received × Receiver :=
  if bus.slots < bus.unread r then
    (.lagged (bus.unread r - bus.slots), ⟨bus.stored.size - bus.slots⟩)
  else
    match bus.stored[r.next]? with
    | some event => (.message event, ⟨r.next + 1⟩)
    | none => (if bus.handles = 0 then .closed else .pending, r)

/-- A receiver reads the event at its position as long as that is kept. -/
theorem recv_eq_message_iff (bus : EventBus) (r : Receiver) (event : Event) :
    (bus.recv r).1 = .message event ↔
      bus.unread r ≤ bus.slots ∧ bus.stored[r.next]? = some event := by
  unfold recv
  split
  · next h =>
    simp only [reduceCtorEq, false_iff, not_and]
    intro h'
    omega
  · next h =>
    split
    · next e he => simp [he, Nat.le_of_not_lt h]
    · next he => split <;> simp [he]

/-- What a receiver gets for a session: events of other sessions are read and skipped.
Every skipped event moves the receiver on, so one step more than events are unread is
budget enough. -/
def recvForFrom (bus : EventBus) (session : SessionId) :
    (budget : Nat) → Receiver → Received × Receiver
  | 0, r => (.pending, r)
  | budget + 1, r =>
    match bus.recv r with
    | (.message event, r) =>
      if event.belongsTo session then (.message event, r)
      else bus.recvForFrom session budget r
    | other => other

/-- What a receiver gets next for a session, and the receiver afterwards. -/
def recvFor (bus : EventBus) (session : SessionId) (r : Receiver) : Received × Receiver :=
  bus.recvForFrom session (bus.unread r + 1) r

/-- A receiver that may be bound to a session. -/
structure Subscription where
  session : Option SessionId
  receiver : Receiver
deriving DecidableEq, Repr

/-- A subscription to all events, or to those of one session. -/
def subscribeTo (bus : EventBus) (session : Option SessionId) : EventBus × Subscription :=
  let (bus, receiver) := bus.subscribe
  (bus, ⟨session, receiver⟩)

/-- What a subscription gets next, and the subscription afterwards. -/
def next (bus : EventBus) (s : Subscription) : Received × Subscription :=
  match s.session with
  | none =>
    let (got, receiver) := bus.recv s.receiver
    (got, { s with receiver })
  | some session =>
    let (got, receiver) := bus.recvFor session s.receiver
    (got, { s with receiver })

/-- What a subscription gets until nothing is there; the end of the bus is listed too. -/
def drainFrom (bus : EventBus) : (budget : Nat) → Subscription → List Received × Subscription
  | 0, s => ([], s)
  | budget + 1, s =>
    match bus.next s with
    | (.pending, s) => ([], s)
    | (.closed, s) => ([.closed], s)
    | (got, s) =>
      let (more, s) := bus.drainFrom budget s
      (got :: more, s)

/-- All that a subscription gets at once.  Every unread event is got at most once, with one
report of lost events before it and one of the end after it. -/
def drain (bus : EventBus) (s : Subscription) : List Received × Subscription :=
  bus.drainFrom (bus.unread s.receiver + 2) s

end EventBus

end PhasedInduction

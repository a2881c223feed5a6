import PhasedInduction.Event.Bus

/-!
# Hosts that share a bus

Hosts emit events through any handle of a bus, subscribe, take what their receivers get next,
and unsubscribe, in any order.  A receiver takes one event at a time, and others may act
between an event that it leaves out and the next one; a single take is therefore the unit in
which hosts interleave.

Main results:

- Theorem {lit}`EventBus.recvForFrom_cases`: what a call for a session gives.
- Theorem {lit}`EventBus.Exchange.step_perform`: what an action can come to.
- Theorem {lit}`EventBus.Exchange.Consistent.perform`: the bus counts the receivers, and none of
  them is past the last stored event.
- Theorem {lit}`EventBus.Exchange.backlog_perform`: what is emitted waits behind what waits
  already.
-/

namespace PhasedInduction

/-- Whether an event concerns a host that follows a session, if it follows one. -/
def Event.isFor (session : Option SessionId) (event : Event) : Bool :=
  session.all event.belongsTo

/-- Whether something received is handed on to a host that follows a session, if it follows
one: only events of other sessions are left out. -/
def Received.isFor (session : Option SessionId) : Received → Bool
  | .message event => event.isFor session
  | _ => true

/-- The event that was received, if one was. -/
def Received.event? : Received → Option Event
  | .message event => some event
  | _ => none

/-- Whether a report of lost events was received. -/
def Received.isLagged : Received → Bool
  | .lagged _ => true
  | _ => false

namespace EventBus

/-! ## One take -/

/-- The stored events that a receiver has not read. -/
def backlog (bus : EventBus) (r : Receiver) : List Event := bus.stored.toList.drop r.next

/-- As many events wait as are unread. -/
theorem length_backlog (bus : EventBus) (r : Receiver) :
    (bus.backlog r).length = bus.unread r := by
  simp [backlog, unread]

/-- A receiver takes something once: what is handed on of it, and the subscription
afterwards. -/
def take (bus : EventBus) (s : Subscription) : List Received × Subscription :=
  ([(bus.recv s.receiver).1].filter (Received.isFor s.session),
    { s with receiver := (bus.recv s.receiver).2 })

/-- A receiver that is too far behind learns how many events it lost, and goes on at the oldest
one that is kept. -/
theorem recv_of_lt {bus : EventBus} {r : Receiver} (h : bus.slots < bus.unread r) :
    bus.recv r = (.lagged (bus.unread r - bus.slots), ⟨bus.stored.size - bus.slots⟩) :=
  if_pos h

/-- A receiver that is not too far behind reads the first event that waits. -/
theorem recv_of_backlog_cons {bus : EventBus} {r : Receiver} {event : Event}
    {rest : List Event} (h : bus.unread r ≤ bus.slots) (hwaits : bus.backlog r = event :: rest) :
    bus.recv r = (.message event, ⟨r.next + 1⟩) := by
  have hfirst : bus.stored[r.next]? = some event := by
    have := congrArg List.head? hwaits
    simpa [backlog] using this
  rw [recv, if_neg (Nat.not_lt.mpr h), hfirst]

/-- A receiver for which nothing waits stays, and learns whether anything can still come. -/
theorem recv_of_backlog_nil {bus : EventBus} {r : Receiver} (hwaits : bus.backlog r = []) :
    bus.recv r = (if bus.handles = 0 then .closed else .pending, r) := by
  have hsize : bus.stored.size ≤ r.next := by simpa [backlog] using hwaits
  have hunread : bus.unread r = 0 := Nat.sub_eq_zero_of_le hsize
  rw [recv, if_neg (by omega), Array.getElem?_eq_none hsize]

/-- After a report of lost events, those wait that are kept. -/
theorem backlog_of_lt {bus : EventBus} {r : Receiver} (h : bus.slots < bus.unread r) :
    bus.backlog ⟨bus.stored.size - bus.slots⟩ =
      (bus.backlog r).drop (bus.unread r - bus.slots) := by
  have hplace : r.next + (bus.unread r - bus.slots) = bus.stored.size - bus.slots := by
    unfold unread at h ⊢
    omega
  rw [backlog, backlog, List.drop_drop, hplace]

/-- After an event was read, those behind it wait. -/
theorem backlog_next {bus : EventBus} {r : Receiver} {event : Event} {rest : List Event}
    (hwaits : bus.backlog r = event :: rest) : bus.backlog ⟨r.next + 1⟩ = rest := by
  rw [backlog, ← List.drop_drop, ← backlog, hwaits, List.drop_one, List.tail_cons]

/-! ## One call -/

/-- A call for a session ends with what its first take gives, unless that is an event of
another session; then the call goes on behind it. -/
theorem recvForFrom_succ (bus : EventBus) (session : SessionId) (budget : Nat) (r : Receiver) :
    bus.recvForFrom session (budget + 1) r =
      if (bus.recv r).1.isFor (some session) then bus.recv r
      else bus.recvForFrom session budget (bus.recv r).2 := by
  rw [recvForFrom]
  generalize bus.recv r = result
  obtain ⟨got, r'⟩ := result
  cases got <;> rfl

/-- Only events that are read are left out, each of which was unread before. -/
theorem unread_of_isFor_eq_false {bus : EventBus} {session : Option SessionId} {r : Receiver}
    (h : (bus.recv r).1.isFor session = false) :
    bus.unread (bus.recv r).2 + 1 = bus.unread r := by
  by_cases hlag : bus.slots < bus.unread r
  · rw [recv_of_lt hlag] at h
    cases h
  · cases hwaits : bus.backlog r with
    | nil =>
      rw [recv_of_backlog_nil hwaits] at h
      by_cases hhandles : bus.handles = 0 <;> simp [hhandles, Received.isFor] at h
    | cons event rest =>
      rw [recv_of_backlog_cons (Nat.le_of_not_lt hlag) hwaits, ← length_backlog,
        backlog_next hwaits, ← length_backlog, hwaits, List.length_cons]

/-- A call for a session gives an event of the session, a report of lost events because too many
were unread, or neither; then nothing waits any more, and the answer tells whether anything can
still come. -/
theorem recvForFrom_cases {bus : EventBus} {session : SessionId} {budget : Nat} {r : Receiver}
    (hbudget : bus.unread r < budget) :
    (∃ event, (bus.recvForFrom session budget r).1 = .message event ∧
        event.belongsTo session = true) ∨
      ((bus.recvForFrom session budget r).1 = .lagged (bus.unread r - bus.slots) ∧
        bus.slots < bus.unread r) ∨
      ((bus.recvForFrom session budget r).1 = (if bus.handles = 0 then .closed else .pending) ∧
        bus.backlog (bus.recvForFrom session budget r).2 = []) := by
  induction budget generalizing r with
  | zero => omega
  | succ budget ih =>
    rw [recvForFrom_succ]
    by_cases hlag : bus.slots < bus.unread r
    · rw [recv_of_lt hlag]
      exact .inr (.inl ⟨rfl, hlag⟩)
    · cases hwaits : bus.backlog r with
      | nil =>
        have hfor : (if bus.handles = 0 then Received.closed else .pending).isFor (some session) =
            true := by
          split <;> rfl
        rw [recv_of_backlog_nil hwaits, if_pos hfor]
        exact .inr (.inr ⟨rfl, hwaits⟩)
      | cons event rest =>
        have hrecv := recv_of_backlog_cons (Nat.le_of_not_lt hlag) hwaits
        cases hfor : (bus.recv r).1.isFor (some session) with
        | true =>
          rw [hrecv] at hfor ⊢
          exact .inl ⟨event, rfl, hfor⟩
        | false =>
          have hunread := unread_of_isFor_eq_false hfor
          rw [if_neg Bool.false_ne_true]
          obtain hown | ⟨-, hlater⟩ | hempty := ih (r := (bus.recv r).2) (by omega)
          · exact .inl hown
          · omega
          · exact .inr (.inr hempty)

/-! ## Hosts that share a bus -/

/-- A bus, and the subscriptions so far; those that were given up leave their place empty. -/
structure Exchange where
  bus : EventBus
  subscriptions : List (Option Subscription) := []

namespace Exchange

/-- What a host does at a bus.  It takes as one of the subscriptions, by its number. -/
inductive Action where
  | emit (event : Event)
  | subscribe (session : Option SessionId)
  | take (number : Nat)
  | unsubscribe (number : Nat)
  | cloneHandle
  | dropHandle

/-- The subscription of a number, unless it was given up. -/
def subscription? (x : Exchange) (number : Nat) : Option Subscription :=
  x.subscriptions[number]?.join

/-- A subscription of a number is replaced, or given up. -/
def replace (x : Exchange) (number : Nat) (s : Option Subscription) : Exchange :=
  { x with subscriptions := x.subscriptions.set number s }

/-- The exchange after an action.  Without a handle nothing is emitted, and nobody subscribes
or gets another handle. -/
def perform (x : Exchange) : Action → Exchange
  | .emit event => if x.bus.handles = 0 then x else { x with bus := (x.bus.emit event).2 }
  | .subscribe session =>
    if x.bus.handles = 0 then x
    else
      { bus := (x.bus.subscribeTo session).1
        subscriptions := x.subscriptions ++ [some (x.bus.subscribeTo session).2] }
  | .take number =>
    match x.subscription? number with
    | none => x
    | some s => x.replace number (some (x.bus.take s).2)
  | .unsubscribe number =>
    match x.subscription? number with
    | none => x
    | some _ => { x.replace number none with bus := x.bus.dropReceiver }
  | .cloneHandle => if x.bus.handles = 0 then x else { x with bus := x.bus.cloneHandle }
  | .dropHandle => { x with bus := x.bus.dropHandle }

/-- What the subscription of a number hands on in an action. -/
def handedOn (x : Exchange) (number : Nat) : Action → List Received
  | .take taker =>
    if taker = number then
      match x.subscription? number with
      | none => []
      | some s => (x.bus.take s).1
    else []
  | _ => []

/-- The events that an action emits. -/
def sent (x : Exchange) : Action → List Event
  | .emit event => if x.bus.handles = 0 then [] else [event]
  | _ => []

/-- The exchange after actions. -/
def after (x : Exchange) (actions : List Action) : Exchange := actions.foldl perform x

/-- All that the subscription of a number hands on in a run. -/
def received (x : Exchange) (number : Nat) : List Action → List Received
  | [] => []
  | action :: actions =>
    x.handedOn number action ++ (x.perform action).received number actions

/-- All events that are emitted in a run. -/
def emitted (x : Exchange) : List Action → List Event
  | [] => []
  | action :: actions => x.sent action ++ (x.perform action).emitted actions

/-! ## What one action does -/

/-- What an action can come to: the events it emits and the exchange afterwards. -/
inductive Step (x : Exchange) : Action → List Event → Exchange → Prop where
  | idle {action : Action} : Step x action [] x
  | emit (event : Event) : Step x (.emit event) [event] { x with bus := (x.bus.emit event).2 }
  | subscribe (session : Option SessionId) :
    Step x (.subscribe session) []
      { bus := (x.bus.subscribeTo session).1
        subscriptions := x.subscriptions ++ [some (x.bus.subscribeTo session).2] }
  | take {number : Nat} {s : Subscription} (hs : x.subscription? number = some s) :
    Step x (.take number) [] (x.replace number (some (x.bus.take s).2))
  | unsubscribe {number : Nat} {s : Subscription} (hs : x.subscription? number = some s) :
    Step x (.unsubscribe number) [] { x.replace number none with bus := x.bus.dropReceiver }
  | handles {action : Action} (handles : Nat) :
    Step x action [] { x with bus := { x.bus with handles } }

/-- Every action comes to one of these. -/
theorem step_perform (x : Exchange) (action : Action) :
    Step x action (x.sent action) (x.perform action) := by
  cases action with
  | emit event =>
    by_cases h : x.bus.handles = 0
    · simpa only [sent, perform, h, if_true] using Step.idle
    · simpa only [sent, perform, h, if_false] using Step.emit event
  | subscribe session =>
    by_cases h : x.bus.handles = 0
    · simpa only [sent, perform, h, if_true] using Step.idle
    · simpa only [sent, perform, h, if_false] using Step.subscribe session
  | take number =>
    cases hs : x.subscription? number with
    | none => simpa only [sent, perform, hs] using Step.idle
    | some s => simpa only [sent, perform, hs] using Step.take hs
  | unsubscribe number =>
    cases hs : x.subscription? number with
    | none => simpa only [sent, perform, hs] using Step.idle
    | some s => simpa only [sent, perform, hs] using Step.unsubscribe hs
  | cloneHandle =>
    by_cases h : x.bus.handles = 0
    · simpa only [sent, perform, h, if_true] using Step.idle
    · simp only [sent, perform, h, if_false]
      exact Step.handles (x.bus.handles + 1)
  | dropHandle => exact Step.handles (x.bus.handles - 1)

/-- Whether an action is one of the subscription of a number. -/
def Action.isOf (number : Nat) : Action → Bool
  | .take taker => taker = number
  | .unsubscribe leaver => leaver = number
  | _ => false

/-- Subscriptions are numbered in order. -/
theorem subscription?_eq_some_iff {x : Exchange} {number : Nat} {s : Subscription} :
    x.subscription? number = some s ↔ x.subscriptions[number]? = some (some s) :=
  Option.join_eq_some_iff

/-- Every number of a subscription is used up. -/
theorem lt_length_of_subscription? {x : Exchange} {number : Nat} {s : Subscription}
    (h : x.subscription? number = some s) : number < x.subscriptions.length :=
  (List.getElem?_eq_some_iff.mp (subscription?_eq_some_iff.mp h)).1

theorem subscription?_replace_self {x : Exchange} {number : Nat} {s : Subscription}
    (h : x.subscription? number = some s) (s' : Option Subscription) :
    (x.replace number s').subscription? number = s' := by
  simp [subscription?, replace, lt_length_of_subscription? h]

theorem subscription?_replace_of_ne (x : Exchange) {number other : Nat} (h : other ≠ number)
    (s : Option Subscription) :
    (x.replace other s).subscription? number = x.subscription? number := by
  simp [subscription?, replace, List.getElem?_set_ne h]

/-- The actions of others leave a subscription where it is. -/
theorem subscription?_perform {x : Exchange} {number : Nat}
    (hnumber : number < x.subscriptions.length) {action : Action}
    (h : action.isOf number = false) :
    (x.perform action).subscription? number = x.subscription? number := by
  have hstep := x.step_perform action
  generalize x.sent action = events at hstep
  generalize x.perform action = y at hstep ⊢
  cases hstep with
  | subscribe session => simp only [subscription?, List.getElem?_append_left hnumber]
  | take hs => exact subscription?_replace_of_ne x (by simpa [Action.isOf] using h) _
  | unsubscribe hs => exact subscription?_replace_of_ne x (by simpa [Action.isOf] using h) none
  | _ => rfl

/-- A subscription hands on nothing in the actions of others. -/
theorem handedOn_of_isOf_eq_false {number : Nat} {action : Action}
    (h : action.isOf number = false) (x : Exchange) : x.handedOn number action = [] := by
  cases action with
  | take taker =>
    have hne : taker ≠ number := by simpa [Action.isOf] using h
    exact if_neg hne
  | _ => rfl

/-- A subscription that takes goes on from what it took. -/
theorem perform_take {x : Exchange} {number : Nat} {s : Subscription}
    (hs : x.subscription? number = some s) :
    x.perform (.take number) = x.replace number (some (x.bus.take s).2) := by
  simp only [perform, hs]

/-- A subscription that takes hands on what it follows. -/
theorem handedOn_take {x : Exchange} {number : Nat} {s : Subscription}
    (hs : x.subscription? number = some s) :
    x.handedOn number (.take number) = (x.bus.take s).1 := by
  simp only [handedOn, if_true, hs]

/-- An action leaves a subscription where it is, makes it take something, or gives it up. -/
theorem perform_of_subscription? {x : Exchange} {number : Nat} {s : Subscription}
    (hs : x.subscription? number = some s) (action : Action) :
    (x.handedOn number action = [] ∧ (x.perform action).subscription? number = some s) ∨
      (x.handedOn number action = (x.bus.take s).1 ∧
        (x.perform action).subscription? number = some (x.bus.take s).2 ∧
        (x.perform action).bus = x.bus) ∨
      (x.handedOn number action = [] ∧ (x.perform action).subscription? number = none) := by
  cases h : action.isOf number with
  | false =>
    refine .inl ⟨handedOn_of_isOf_eq_false h x, ?_⟩
    rw [subscription?_perform (lt_length_of_subscription? hs) h, hs]
  | true =>
    cases action with
    | take taker =>
      obtain rfl : taker = number := by simpa [Action.isOf] using h
      rw [perform_take hs]
      exact .inr (.inl ⟨handedOn_take hs, subscription?_replace_self hs _, rfl⟩)
    | unsubscribe leaver =>
      obtain rfl : leaver = number := by simpa [Action.isOf] using h
      simp only [perform, hs]
      exact .inr (.inr ⟨rfl, subscription?_replace_self hs none⟩)
    | _ => cases h

/-- A subscription that was given up hands on nothing and does not come back. -/
theorem perform_of_gone {x : Exchange} {number : Nat}
    (hnumber : number < x.subscriptions.length) (hgone : x.subscription? number = none)
    (action : Action) :
    x.handedOn number action = [] ∧ (x.perform action).subscription? number = none := by
  cases h : action.isOf number with
  | false => exact ⟨handedOn_of_isOf_eq_false h x, (subscription?_perform hnumber h).trans hgone⟩
  | true =>
    cases action with
    | take taker =>
      obtain rfl : taker = number := by simpa [Action.isOf] using h
      simp [handedOn, perform, hgone]
    | unsubscribe leaver =>
      obtain rfl : leaver = number := by simpa [Action.isOf] using h
      simp [handedOn, perform, hgone]
    | _ => cases h

/-- No action frees a number. -/
theorem length_subscriptions_le (x : Exchange) (action : Action) :
    x.subscriptions.length ≤ (x.perform action).subscriptions.length := by
  have hstep := x.step_perform action
  generalize x.sent action = events at hstep
  generalize x.perform action = y at hstep ⊢
  cases hstep <;> simp [replace]

/-- Every action keeps the slots. -/
theorem slots_perform (x : Exchange) (action : Action) :
    (x.perform action).bus.slots = x.bus.slots := by
  have hstep := x.step_perform action
  generalize x.sent action = events at hstep
  generalize x.perform action = y at hstep ⊢
  cases hstep with
  | emit event =>
    unfold EventBus.emit
    split <;> rfl
  | _ => rfl

/-- Without handles there never are any again, and nothing is emitted. -/
theorem perform_of_closed {x : Exchange} (h : x.bus.handles = 0) (action : Action) :
    (x.perform action).bus.handles = 0 ∧ x.sent action = [] := by
  cases action with
  | take number =>
    refine ⟨?_, rfl⟩
    simp only [perform]
    split <;> exact h
  | unsubscribe number =>
    refine ⟨?_, rfl⟩
    simp only [perform]
    split <;> exact h
  | _ => simp [perform, sent, h, dropHandle]

/-! ## Consistent exchanges -/

/-- The bus counts the receivers there are, and none of them is past the last stored event. -/
structure Consistent (x : Exchange) : Prop where
  receivers : x.bus.receivers = x.subscriptions.countP Option.isSome
  position : ∀ s, some s ∈ x.subscriptions → s.receiver.next ≤ x.bus.stored.size

/-- A new bus that nobody subscribed to is consistent. -/
theorem consistent_of_withCapacity? {capacity : Nat} {bus : EventBus}
    (h : withCapacity? capacity = some bus) : Consistent ⟨bus, []⟩ := by
  unfold withCapacity? at h
  split at h
  · cases h
  · cases h
    exact ⟨rfl, fun s hs => absurd hs List.not_mem_nil⟩

namespace Consistent

variable {x : Exchange} {number : Nat} {s : Subscription}

/-- While there is a subscription, the bus knows of a receiver. -/
theorem receivers_ne_zero (hx : Consistent x) (hs : x.subscription? number = some s) :
    x.bus.receivers ≠ 0 := by
  rw [hx.receivers, ← Nat.pos_iff_ne_zero, List.countP_pos_iff]
  exact ⟨some s, List.mem_of_getElem? (subscription?_eq_some_iff.mp hs), rfl⟩

/-- No receiver is past the last stored event. -/
theorem next_le (hx : Consistent x) (hs : x.subscription? number = some s) :
    s.receiver.next ≤ x.bus.stored.size :=
  hx.position s (List.mem_of_getElem? (subscription?_eq_some_iff.mp hs))

end Consistent

/-- What a receiver takes does not bring it past the last stored event. -/
theorem next_recv_le {bus : EventBus} {r : Receiver} (h : r.next ≤ bus.stored.size) :
    (bus.recv r).2.next ≤ bus.stored.size := by
  unfold recv
  split
  · exact Nat.sub_le _ _
  · split
    · next event hevent => exact (Array.getElem?_eq_some_iff.mp hevent).1
    · exact h

/-- Every action keeps an exchange consistent. -/
theorem Consistent.perform {x : Exchange} (hx : Consistent x) (action : Action) :
    Consistent (x.perform action) := by
  have hstep := x.step_perform action
  generalize x.sent action = events at hstep
  generalize x.perform action = y at hstep ⊢
  cases hstep with
  | idle => exact hx
  | handles handles => exact ⟨hx.receivers, hx.position⟩
  | emit event =>
    unfold EventBus.emit
    split
    · exact ⟨hx.receivers, hx.position⟩
    · refine ⟨hx.receivers, fun s hs => ?_⟩
      rw [Array.size_push]
      exact Nat.le_succ_of_le (hx.position s hs)
  | subscribe session =>
    refine ⟨?_, fun s hs => ?_⟩
    · simp [subscribeTo, EventBus.subscribe, hx.receivers]
    · rcases List.mem_append.mp hs with hold | hnew
      · exact hx.position s hold
      · cases List.mem_singleton.mp hnew
        exact Nat.le_refl _
  | @take number s hs =>
    obtain ⟨hlt, hplace⟩ := List.getElem?_eq_some_iff.mp (subscription?_eq_some_iff.mp hs)
    refine ⟨?_, fun s' hs' => ?_⟩
    · -- One subscription takes the place of another one.
      rw [replace, List.countP_set hlt, hplace]
      have hsome := hx.receivers_ne_zero hs
      have hcount := hx.receivers
      simp only [Option.isSome_some, if_true]
      omega
    · rcases List.mem_or_eq_of_mem_set hs' with hold | hnew
      · exact hx.position s' hold
      · cases hnew
        exact next_recv_le (hx.next_le hs)
  | @unsubscribe number s hs =>
    obtain ⟨hlt, hplace⟩ := List.getElem?_eq_some_iff.mp (subscription?_eq_some_iff.mp hs)
    refine ⟨?_, fun s' hs' => ?_⟩
    · rw [replace, List.countP_set hlt, hplace]
      simp [dropReceiver, hx.receivers]
    · rcases List.mem_or_eq_of_mem_set hs' with hold | hnew
      · exact hx.position s' hold
      · cases hnew

/-- What is emitted while there is a subscription waits behind what waits for it. -/
theorem backlog_perform {x : Exchange} (hx : Consistent x) {number : Nat} {s : Subscription}
    (hs : x.subscription? number = some s) (action : Action) :
    (x.perform action).bus.backlog s.receiver =
      x.bus.backlog s.receiver ++ x.sent action := by
  have hnext := hx.next_le hs
  have hreceivers := hx.receivers_ne_zero hs
  have hstep := x.step_perform action
  generalize x.perform action = y at hstep ⊢
  generalize x.sent action = events at hstep ⊢
  cases hstep with
  | emit event =>
    have hle : s.receiver.next ≤ x.bus.stored.toList.length := hnext
    simp only [EventBus.emit, hreceivers, if_false, backlog, Array.toList_push,
      List.drop_append_of_le_length hle]
  | _ => exact (List.append_nil _).symm

/-- Every run keeps an exchange consistent. -/
theorem Consistent.after {x : Exchange} (hx : Consistent x) (actions : List Action) :
    Consistent (x.after actions) := by
  induction actions generalizing x with
  | nil => exact hx
  | cons action actions ih => exact ih (hx.perform action)

/-- Every run keeps the slots. -/
theorem slots_after (x : Exchange) (actions : List Action) :
    (x.after actions).bus.slots = x.bus.slots := by
  induction actions generalizing x with
  | nil => rfl
  | cons action actions ih => exact (ih (x.perform action)).trans (x.slots_perform action)

end Exchange

end EventBus

end PhasedInduction

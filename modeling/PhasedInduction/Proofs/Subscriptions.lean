import PhasedInduction.Proofs.Exchange

/-!
# Following one session

A receiver that follows a session is a plain receiver whose reader leaves out the events of
other sessions.  It loses and repeats nothing on its own: every event emitted after it
subscribed is handed on once and in order, skipped as another session's, or counted by one
report of lost events, and nothing is lost while no more events wait than the bus has slots.
A call that waits for an event of the session is a row of takes.

Main results:

- Theorem {lit}`EventBus.Exchange.received_forgetSession`: following a session is filtering a
  plain receiver.
- Theorem {lit}`EventBus.Exchange.delivered`: what becomes of every event emitted after a
  subscription.
- Theorem {lit}`EventBus.Exchange.not_lagged`: when nothing is lost.
- Theorem {lit}`EventBus.Exchange.received_replicate_take`: a call nobody interrupts is a row of
  takes.
- Theorem {lit}`EventBus.session_receiver_filters`: the law of session receivers on a bus of any
  capacity.
-/

namespace PhasedInduction

namespace EventBus

namespace Exchange

/-! ## A plain receiver in place of a session receiver -/

/-- A received event or report is always handed on where no session is followed. -/
@[simp] theorem isFor_none (got : Received) : got.isFor none = true := by
  cases got <;> rfl

/-- The subscription of a number follows no session any more. -/
def forgetSession (x : Exchange) (number : Nat) : Exchange :=
  { x with
    subscriptions :=
      x.subscriptions.modify number (Option.map fun s => { s with session := none }) }

theorem subscription?_forgetSession_self (x : Exchange) (number : Nat) :
    (x.forgetSession number).subscription? number =
      (x.subscription? number).map fun s => { s with session := none } := by
  unfold subscription? forgetSession
  rw [List.getElem?_modify_eq]
  cases x.subscriptions[number]? <;> rfl

theorem subscription?_forgetSession_of_ne (x : Exchange) {number other : Nat}
    (h : number ≠ other) :
    (x.forgetSession number).subscription? other = x.subscription? other := by
  unfold subscription? forgetSession
  rw [List.getElem?_modify]
  cases x.subscriptions[other]? <;> simp [h]

theorem forgetSession_replace_self (x : Exchange) (number : Nat) (s : Option Subscription) :
    (x.replace number s).forgetSession number =
      (x.forgetSession number).replace number (s.map fun s => { s with session := none }) := by
  simp only [forgetSession, replace, mk.injEq, true_and]
  refine List.ext_getElem? fun i => ?_
  by_cases h : number = i
  · subst h
    by_cases hlt : number < x.subscriptions.length <;> simp [hlt]
  · simp [h]

theorem forgetSession_replace_of_ne (x : Exchange) {number other : Nat} (h : number ≠ other)
    (s : Option Subscription) :
    (x.replace other s).forgetSession number = (x.forgetSession number).replace other s := by
  simp only [forgetSession, replace, mk.injEq, true_and]
  refine List.ext_getElem? fun i => ?_
  by_cases hi : number = i
  · subst hi
    simp [List.getElem?_set_ne (Ne.symm h)]
  · simp [List.getElem?_set, hi]

/-- An action comes to the same whether or not the session of a subscription is forgotten. -/
theorem perform_forgetSession {x : Exchange} {number : Nat}
    (hnumber : number < x.subscriptions.length) (action : Action) :
    (x.forgetSession number).perform action = (x.perform action).forgetSession number := by
  cases action with
  | subscribe session =>
    by_cases h : x.bus.handles = 0
    · simp [perform, forgetSession, h]
    · simp only [perform, forgetSession, h, if_false, mk.injEq, true_and]
      refine List.ext_getElem? fun i => ?_
      by_cases hi : number = i
      · subst hi
        simp [List.getElem?_append_left, hnumber]
      · simp [List.getElem?_append, hi]
  | take taker =>
    by_cases hne : number = taker
    · subst hne
      have hself := x.subscription?_forgetSession_self number
      cases hs : x.subscription? number with
      | none => simp only [perform, hself, hs, Option.map_none]
      | some s =>
        simp only [perform, hself, hs, Option.map_some, forgetSession_replace_self]
        rfl
    · have hother := x.subscription?_forgetSession_of_ne hne
      cases hs : x.subscription? taker with
      | none => simp only [perform, hother, hs]
      | some s =>
        simp only [perform, hother, hs, forgetSession_replace_of_ne x hne]
        rfl
  | unsubscribe leaver =>
    by_cases hne : number = leaver
    · subst hne
      have hself := x.subscription?_forgetSession_self number
      cases hs : x.subscription? number with
      | none => simp only [perform, hself, hs, Option.map_none]
      | some s =>
        have hcommute := x.forgetSession_replace_self number none
        simp only [perform, hself, hs, Option.map_some]
        exact congrArg (fun y : Exchange => { y with bus := x.bus.dropReceiver }) hcommute.symm
    · have hother := x.subscription?_forgetSession_of_ne hne
      cases hs : x.subscription? leaver with
      | none => simp only [perform, hother, hs]
      | some s =>
        have hcommute := x.forgetSession_replace_of_ne hne none
        simp only [perform, hother, hs]
        exact congrArg (fun y : Exchange => { y with bus := x.bus.dropReceiver }) hcommute.symm
  | _ => by_cases h : x.bus.handles = 0 <;> simp [perform, forgetSession, h]

/-- A subscription that follows a session hands on what it would hand on otherwise, without
the events of other sessions. -/
theorem handedOn_forgetSession {x : Exchange} {number : Nat} {session : Option SessionId}
    (hsession : ∀ s, x.subscription? number = some s → s.session = session) (action : Action) :
    x.handedOn number action =
      ((x.forgetSession number).handedOn number action).filter (Received.isFor session) := by
  cases h : action.isOf number with
  | false => simp only [handedOn_of_isOf_eq_false h, List.filter_nil]
  | true =>
    cases action with
    | take taker =>
      obtain rfl : taker = number := by simpa [Action.isOf] using h
      have hself := x.subscription?_forgetSession_self taker
      cases hs : x.subscription? taker with
      | none => simp [handedOn, hself, hs]
      | some s =>
        rw [hs, Option.map_some] at hself
        rw [handedOn_take hs, handedOn_take hself, ← hsession s hs]
        simp only [EventBus.take, List.filter_filter, isFor_none, Bool.and_true]
        rfl
    | _ => rfl

/-- A subscription follows the same session after every action. -/
theorem session_perform {x : Exchange} {number : Nat} {session : Option SessionId}
    (hnumber : number < x.subscriptions.length)
    (hsession : ∀ s, x.subscription? number = some s → s.session = session) (action : Action) :
    ∀ s, (x.perform action).subscription? number = some s → s.session = session := by
  intro s hs
  cases hbefore : x.subscription? number with
  | none => cases (perform_of_gone hnumber hbefore action).2.symm.trans hs
  | some s' =>
    have hsession' := hsession s' hbefore
    obtain ⟨-, hstays⟩ | ⟨-, htook, -⟩ | ⟨-, hgone⟩ := perform_of_subscription? hbefore action
    · cases hstays.symm.trans hs
      exact hsession'
    · cases htook.symm.trans hs
      exact hsession'
    · cases hgone.symm.trans hs

/-- Following a session is filtering a plain receiver: in every run, a subscription to a session
hands on what it would hand on otherwise, with the events of other sessions left out and every
report kept in its place. -/
theorem received_forgetSession {x : Exchange} {number : Nat} {session : Option SessionId}
    (hnumber : number < x.subscriptions.length)
    (hsession : ∀ s, x.subscription? number = some s → s.session = session)
    (actions : List Action) :
    x.received number actions =
      ((x.forgetSession number).received number actions).filter (Received.isFor session) := by
  induction actions generalizing x with
  | nil => rfl
  | cons action actions ih =>
    have hrest := ih (Nat.lt_of_lt_of_le hnumber (x.length_subscriptions_le action))
      (session_perform hnumber hsession action)
    rw [received, received, perform_forgetSession hnumber, List.filter_append,
      ← handedOn_forgetSession hsession, hrest]

/-- A run ends the same whether or not the session of a subscription is forgotten; in
particular the receiver is at the same position. -/
theorem after_forgetSession {x : Exchange} {number : Nat}
    (hnumber : number < x.subscriptions.length) (actions : List Action) :
    (x.forgetSession number).after actions = (x.after actions).forgetSession number := by
  induction actions generalizing x with
  | nil => rfl
  | cons action actions ih =>
    have hrest := ih (Nat.lt_of_lt_of_le hnumber (x.length_subscriptions_le action))
    rw [← perform_forgetSession hnumber] at hrest
    exact hrest

/-! ## What becomes of the emitted events -/

/-- How what is handed on to a host accounts for the events that its receiver went through:
each of them is handed on once, skipped as another session's, or counted by one report of lost
events, all in order.  In between the host may learn that nothing is there yet, and in the end
that the bus is closed. -/
inductive Delivered (session : Option SessionId) : List Event → List Received → Prop where
  | ended {got : List Received} (h : ∀ r ∈ got, r = .closed) : Delivered session [] got
  | waited {events : List Event} {got : List Received} (rest : Delivered session events got) :
    Delivered session events (.pending :: got)
  | handedOn {event : Event} {events : List Event} {got : List Received}
    (own : event.isFor session = true) (rest : Delivered session events got) :
    Delivered session (event :: events) (.message event :: got)
  | skipped {event : Event} {events : List Event} {got : List Received}
    (foreign : event.isFor session = false) (rest : Delivered session events got) :
    Delivered session (event :: events) got
  | lost {lost events : List Event} {got : List Received} (nonempty : lost ≠ [])
    (rest : Delivered session events got) :
    Delivered session (lost ++ events) (.lagged lost.length :: got)

/-- Without a report of lost events, a host gets exactly the events that it follows. -/
theorem Delivered.filterMap_event? {session : Option SessionId} {events : List Event}
    {got : List Received} (h : Delivered session events got)
    (hgot : ∀ r ∈ got, r.isLagged = false) :
    got.filterMap Received.event? = events.filter (Event.isFor session) := by
  induction h with
  | @ended got hclosed =>
    refine List.filterMap_eq_nil_iff.mpr fun r hr => ?_
    rw [hclosed r hr]
    rfl
  | waited rest ih => exact ih fun r hr => hgot r (List.mem_cons_of_mem _ hr)
  | handedOn own rest ih =>
    rw [List.filter_cons, if_pos own, ← ih fun r hr => hgot r (List.mem_cons_of_mem _ hr)]
    rfl
  | skipped foreign rest ih =>
    rw [List.filter_cons, if_neg (Bool.eq_false_iff.mp foreign), ih hgot]
  | lost nonempty rest ih => cases hgot _ List.mem_cons_self

/-- A take finds the bus closed, or it accounts for the events by which the receiver moves
on. -/
theorem take_cases (bus : EventBus) (s : Subscription) :
    (bus.handles = 0 ∧ bus.backlog s.receiver = [] ∧ bus.take s = ([.closed], s)) ∨
      ∃ events, bus.backlog s.receiver = events ++ bus.backlog (bus.take s).2.receiver ∧
        ∀ more got, Delivered s.session more got →
          Delivered s.session (events ++ more) ((bus.take s).1 ++ got) := by
  obtain ⟨session, r⟩ := s
  by_cases hlag : bus.slots < bus.unread r
  · refine .inr ⟨(bus.backlog r).take (bus.unread r - bus.slots), ?_, fun more got hrest => ?_⟩
    · simp only [EventBus.take, recv_of_lt hlag, backlog_of_lt hlag, List.take_append_drop]
    · have hlength :
          ((bus.backlog r).take (bus.unread r - bus.slots)).length = bus.unread r - bus.slots := by
        rw [List.length_take, length_backlog]
        omega
      have hne : (bus.backlog r).take (bus.unread r - bus.slots) ≠ [] := by
        rw [← List.length_pos_iff, hlength]
        omega
      have hlost := Delivered.lost hne hrest
      rw [hlength] at hlost
      simp only [EventBus.take, recv_of_lt hlag]
      exact hlost
  · cases hwaits : bus.backlog r with
    | nil =>
      by_cases hhandles : bus.handles = 0
      · refine .inl ⟨hhandles, rfl, ?_⟩
        simp only [EventBus.take, recv_of_backlog_nil hwaits, hhandles, if_true]
        rfl
      · refine .inr ⟨[], ?_, fun more got hrest => ?_⟩
        · simp only [EventBus.take, recv_of_backlog_nil hwaits, hwaits, List.nil_append]
        · simp only [EventBus.take, recv_of_backlog_nil hwaits, hhandles, if_false]
          exact .waited hrest
    | cons event rest =>
      have hrecv := recv_of_backlog_cons (Nat.le_of_not_lt hlag) hwaits
      refine .inr ⟨[event], ?_, fun more got hrest => ?_⟩
      · simp only [EventBus.take, hrecv, backlog_next hwaits, List.singleton_append]
      · simp only [EventBus.take, hrecv]
        cases hown : event.isFor session with
        | true => simpa [Received.isFor, hown] using Delivered.handedOn hown hrest
        | false => simpa [Received.isFor, hown] using Delivered.skipped hown hrest

/-- A subscription that was given up hands on nothing any more. -/
theorem received_of_gone {x : Exchange} {number : Nat}
    (hnumber : number < x.subscriptions.length) (hgone : x.subscription? number = none)
    (actions : List Action) :
    x.received number actions = [] ∧ (x.after actions).subscription? number = none := by
  induction actions generalizing x with
  | nil => exact ⟨rfl, hgone⟩
  | cons action actions ih =>
    obtain ⟨hnothing, hstill⟩ := perform_of_gone hnumber hgone action
    obtain ⟨hreceived, hafter⟩ :=
      ih (Nat.lt_of_lt_of_le hnumber (x.length_subscriptions_le action)) hstill
    exact ⟨by rw [received, hnothing, hreceived, List.append_nil], hafter⟩

/-- Without handles nothing is emitted. -/
theorem emitted_of_closed {x : Exchange} (h : x.bus.handles = 0) (actions : List Action) :
    x.emitted actions = [] := by
  induction actions generalizing x with
  | nil => rfl
  | cons action actions ih =>
    obtain ⟨hstill, hsent⟩ := perform_of_closed h action
    rw [emitted, hsent, ih hstill, List.append_nil]

/-- A subscription for which nothing waits on a closed bus only learns that it is closed. -/
theorem received_of_closed {x : Exchange} (hx : Consistent x) (hclosed : x.bus.handles = 0)
    {number : Nat} {s : Subscription} (hs : x.subscription? number = some s)
    (hwaits : x.bus.backlog s.receiver = []) (actions : List Action) :
    ∀ r ∈ x.received number actions, r = .closed := by
  induction actions generalizing x with
  | nil => exact fun r hr => absurd hr List.not_mem_nil
  | cons action actions ih =>
    obtain ⟨hclosed', hsent⟩ := perform_of_closed hclosed action
    have hwaits' : (x.perform action).bus.backlog s.receiver = [] := by
      rw [backlog_perform hx hs, hwaits, hsent, List.append_nil]
    have htake : x.bus.take s = ([.closed], s) := by
      simp only [EventBus.take, recv_of_backlog_nil hwaits, hclosed, if_true]
      rfl
    rw [received]
    obtain ⟨hnothing, hstays⟩ | ⟨htook, hstays, -⟩ | ⟨hnothing, hgone⟩ :=
      perform_of_subscription? hs action
    · rw [hnothing]
      exact ih (hx.perform action) hclosed' hstays hwaits'
    · rw [htake] at htook hstays
      rw [htook]
      refine fun r hr => (List.mem_append.mp hr).elim List.mem_singleton.mp ?_
      exact ih (hx.perform action) hclosed' hstays hwaits' r
    · have hnumber := Nat.lt_of_lt_of_le (lt_length_of_subscription? hs)
        (x.length_subscriptions_le action)
      rw [hnothing, (received_of_gone hnumber hgone actions).1]
      exact fun r hr => absurd hr List.not_mem_nil

/-- In every run of the hosts, the events that wait for a subscription and those emitted later
are gone through in order, and what is handed on accounts for them.  Those not gone through
are the ones that wait in the end, unless the subscription was given up. -/
theorem delivered {x : Exchange} (hx : Consistent x) {number : Nat} {s : Subscription}
    (hs : x.subscription? number = some s) (actions : List Action) :
    ∃ seen left, x.bus.backlog s.receiver ++ x.emitted actions = seen ++ left ∧
      Delivered s.session seen (x.received number actions) ∧
      ∀ s', (x.after actions).subscription? number = some s' →
        (x.after actions).bus.backlog s'.receiver = left := by
  induction actions generalizing x s with
  | nil =>
    refine ⟨[], x.bus.backlog s.receiver, List.append_nil _, .ended fun r hr => ?_, ?_⟩
    · exact absurd hr List.not_mem_nil
    · intro s' hs'
      cases hs.symm.trans hs'
      rfl
  | cons action actions ih =>
    have hwaits := backlog_perform hx hs action
    rw [received, emitted, ← List.append_assoc, ← hwaits]
    obtain ⟨hnothing, hstays⟩ | ⟨htook, hstays, hbus⟩ | ⟨hnothing, hgone⟩ :=
      perform_of_subscription? hs action
    · rw [hnothing, List.nil_append]
      exact ih (hx.perform action) hstays
    · obtain ⟨seen, left, hseen, hdelivered, hleft⟩ := ih (hx.perform action) hstays
      rw [hbus] at hseen ⊢
      rw [htook]
      obtain ⟨hclosed, hempty, htake⟩ | ⟨events, hevents, hextend⟩ := take_cases x.bus s
      · -- Nothing waits and nothing more comes: all that is learned is that the bus is closed.
        rw [htake] at hstays hseen ⊢
        have hclosed' : (x.perform action).bus.handles = 0 := (perform_of_closed hclosed action).1
        have hnone : seen ++ left = [] := by
          rw [← hseen, hempty, emitted_of_closed hclosed', List.append_nil]
        obtain ⟨rfl, rfl⟩ := List.append_eq_nil_iff.mp hnone
        refine ⟨[], [], hseen, .ended fun r hr => ?_, hleft⟩
        refine (List.mem_append.mp hr).elim List.mem_singleton.mp ?_
        have hwaits' : (x.perform action).bus.backlog s.receiver = [] := by rw [hbus, hempty]
        exact received_of_closed (hx.perform action) hclosed' hstays hwaits' actions r
      · refine ⟨events ++ seen, left, ?_, hextend _ _ hdelivered, hleft⟩
        rw [hevents, List.append_assoc, hseen, List.append_assoc]
    · have hnumber := Nat.lt_of_lt_of_le (lt_length_of_subscription? hs)
        (x.length_subscriptions_le action)
      obtain ⟨hreceived, hafter⟩ := received_of_gone hnumber hgone actions
      rw [hnothing, hreceived]
      refine ⟨[], _, rfl, .ended fun r hr => absurd hr List.not_mem_nil, fun s' hs' => ?_⟩
      cases hafter.symm.trans hs'

/-! ## When nothing is lost -/

/-- How many events wait for the subscription of a number. -/
def unread (x : Exchange) (number : Nat) : Nat :=
  ((x.subscription? number).map fun s => x.bus.unread s.receiver).getD 0

/-- Who has no more events unread than there are slots is not told of lost events. -/
theorem not_lagged_take {bus : EventBus} {s : Subscription}
    (h : bus.unread s.receiver ≤ bus.slots) : ∀ r ∈ (bus.take s).1, r.isLagged = false := by
  intro r hr
  obtain rfl := List.mem_singleton.mp (List.mem_filter.mp hr).1
  cases hwaits : bus.backlog s.receiver with
  | nil =>
    rw [recv_of_backlog_nil hwaits]
    split <;> rfl
  | cons event rest =>
    rw [recv_of_backlog_cons h hwaits]
    rfl

/-- A subscription is never told of lost events in a run in which no more events than there
are slots ever wait for it. -/
theorem not_lagged {x : Exchange} {number : Nat} (hnumber : number < x.subscriptions.length)
    {actions : List Action}
    (hfew : ∀ some, some <+: actions → (x.after some).unread number ≤ x.bus.slots) :
    ∀ r ∈ x.received number actions, r.isLagged = false := by
  induction actions generalizing x with
  | nil => exact fun r hr => absurd hr List.not_mem_nil
  | cons action actions ih =>
    have hrest := ih (Nat.lt_of_lt_of_le hnumber (x.length_subscriptions_le action))
      fun some hsome => by
        rw [slots_perform]
        exact hfew (action :: some) (List.cons_prefix_cons.mpr ⟨rfl, hsome⟩)
    refine fun r hr => (List.mem_append.mp hr).elim (fun hfirst => ?_) (hrest r)
    cases hs : x.subscription? number with
    | none =>
      rw [(perform_of_gone hnumber hs action).1] at hfirst
      cases hfirst
    | some s =>
      have hunread : x.bus.unread s.receiver ≤ x.bus.slots := by
        have := hfew [] List.nil_prefix
        simpa [unread, after, hs] using this
      obtain ⟨hnothing, -⟩ | ⟨htook, -⟩ | ⟨hnothing, -⟩ := perform_of_subscription? hs action
      · rw [hnothing] at hfirst
        cases hfirst
      · rw [htook] at hfirst
        exact not_lagged_take hunread r hfirst
      · rw [hnothing] at hfirst
        cases hfirst

/-! ## Calls that nobody interrupts -/

/-- A call for a session that nobody interrupts is a row of takes, of which only the last hands
something on: the answer of the call. -/
theorem received_replicate_take {x : Exchange} {number budget : Nat} {session : SessionId}
    {r : Receiver} (hs : x.subscription? number = some ⟨some session, r⟩)
    (hbudget : x.bus.unread r < budget) :
    ∃ skips, x.received number (List.replicate (skips + 1) (.take number)) =
        [(x.bus.recvForFrom session budget r).1] ∧
      x.after (List.replicate (skips + 1) (.take number)) =
        x.replace number (some ⟨some session, (x.bus.recvForFrom session budget r).2⟩) := by
  induction budget generalizing x r with
  | zero => omega
  | succ budget ih =>
    rw [recvForFrom_succ]
    cases hfor : (x.bus.recv r).1.isFor (some session) with
    | true =>
      refine ⟨0, ?_, perform_take hs⟩
      simp [received, handedOn_take hs, EventBus.take, hfor]
    | false =>
      -- An event of another session was read; the call goes on behind it with less unread.
      have hunread := unread_of_isFor_eq_false hfor
      have htook : (x.perform (.take number)).subscription? number =
          some ⟨some session, (x.bus.recv r).2⟩ := by
        rw [perform_take hs, subscription?_replace_self hs]
        rfl
      have hbus : (x.perform (.take number)).bus = x.bus := by
        rw [perform_take hs]
        rfl
      obtain ⟨skips, hreceived, hafter⟩ := ih htook (by rw [hbus]; omega)
      rw [hbus] at hreceived hafter
      refine ⟨skips + 1, ?_, ?_⟩
      · rw [List.replicate_succ, received, hreceived, handedOn_take hs]
        simp [EventBus.take, hfor]
      · rw [List.replicate_succ]
        refine hafter.trans ?_
        rw [perform_take hs]
        simp [replace]

/-! ## The law of session receivers -/

/-- A subscription follows the same session after every run. -/
theorem session_after {x : Exchange} {number : Nat} {session : Option SessionId}
    (hnumber : number < x.subscriptions.length)
    (hsession : ∀ s, x.subscription? number = some s → s.session = session)
    (actions : List Action) :
    ∀ s, (x.after actions).subscription? number = some s → s.session = session := by
  induction actions generalizing x with
  | nil => exact hsession
  | cons action actions ih =>
    exact ih (Nat.lt_of_lt_of_le hnumber (x.length_subscriptions_le action))
      (session_perform hnumber hsession action)

section Subscribe

variable {x : Exchange} (hopen : x.bus.handles ≠ 0) (session : Option SessionId)
include hopen

/-- A new subscription gets the next number and waits for what is emitted from then on. -/
theorem subscription?_perform_subscribe :
    (x.perform (.subscribe session)).subscription? x.subscriptions.length =
      some ⟨session, ⟨x.bus.stored.size⟩⟩ := by
  simp only [perform, hopen, if_false, subscription?, List.getElem?_concat_length]
  rfl

/-- Nothing waits for a new subscription. -/
theorem backlog_perform_subscribe :
    (x.perform (.subscribe session)).bus.backlog ⟨x.bus.stored.size⟩ = [] := by
  simp [perform, hopen, backlog, subscribeTo, EventBus.subscribe]

/-- A new subscription to a session, with the session forgotten, is one to everything. -/
theorem forgetSession_perform_subscribe :
    (x.perform (.subscribe session)).forgetSession x.subscriptions.length =
      x.perform (.subscribe none) := by
  simp only [perform, hopen, if_false, forgetSession, mk.injEq]
  refine ⟨rfl, List.ext_getElem? fun i => ?_⟩
  rw [List.getElem?_modify]
  obtain hlt | rfl | hgt := Nat.lt_trichotomy i x.subscriptions.length
  · simp [List.getElem?_append_left hlt, Nat.ne_of_gt hlt]
  · simp [subscribeTo, EventBus.subscribe]
  · have hpast (s : Option Subscription) : (x.subscriptions ++ [s])[i]? = none :=
      List.getElem?_eq_none (by rw [List.length_append]; exact hgt)
    rw [hpast, hpast]
    rfl

end Subscribe

end Exchange

/-- Hosts share a bus of any capacity that a bus can have: a bus with as many slots as the
least power of two that is not below.  They do as they like, and at some moment one of them
subscribes to a session while another could have subscribed to everything.  Whatever the hosts
do then, the two get the same, but for the events of other sessions that the first leaves out,
and they end at the same position.

What the first one gets accounts for every event emitted since it subscribed, but for those that
wait in the end: each is handed on once, left out as another session's, or counted by one report
of lost events, all in order.  If never more events wait for it than the bus has slots, it gets
exactly the events of the session.  A call that nobody interrupts comes back with what the last
of a row of takes hands on; unless that is an event of the session or a report of lost events,
nothing waits any more. -/
theorem session_receiver_filters {capacity : Nat} (hpos : 1 ≤ capacity)
    (hlargest : capacity ≤ largestCapacity) :
    ∃ bus, withCapacity? capacity = some bus ∧ (∃ k, bus.slots = Nat.pow 2 k) ∧
      capacity ≤ bus.slots ∧ bus.slots < 2 * capacity ∧
      ∀ (before : List Exchange.Action) (session : SessionId) (actions : List Exchange.Action),
        let x := (Exchange.mk bus []).after before
        let number := x.subscriptions.length
        let plain := x.perform (.subscribe none)
        let following := x.perform (.subscribe (some session))
        let reached := following.after actions
        x.bus.handles ≠ 0 →
        following.received number actions =
            (plain.received number actions).filter (Received.isFor (some session)) ∧
          reached.forgetSession number = plain.after actions ∧
          (∃ seen left, following.emitted actions = seen ++ left ∧
            Exchange.Delivered (some session) seen (following.received number actions) ∧
            (∀ s, reached.subscription? number = some s → reached.bus.backlog s.receiver = left) ∧
            ((∀ some, some <+: actions → (following.after some).unread number ≤ bus.slots) →
              (∀ r ∈ following.received number actions, r.isLagged = false) ∧
              (following.received number actions).filterMap Received.event? =
                seen.filter fun event => event.belongsTo session)) ∧
          ∀ s, reached.subscription? number = some s →
            let call := reached.bus.recvFor session s.receiver
            (∃ skips, let takes := List.replicate (skips + 1) (Exchange.Action.take number)
              reached.received number takes = [call.1] ∧
              reached.after takes = reached.replace number (some ⟨some session, call.2⟩)) ∧
            ((∃ event, call.1 = .message event ∧ event.belongsTo session = true) ∨
              (call.1 = .lagged (reached.bus.unread s.receiver - bus.slots) ∧
                bus.slots < reached.bus.unread s.receiver) ∨
              (call.1 = (if reached.bus.handles = 0 then .closed else .pending) ∧
                reached.bus.backlog call.2 = [])) := by
  refine ⟨{ slots := slotsFor capacity }, if_neg (by omega), ?_, le_slotsFor capacity,
    slotsFor_lt (by omega), ?_⟩
  · unfold slotsFor
    split
    · exact ⟨0, rfl⟩
    · exact ⟨_, rfl⟩
  intro before session actions x number plain following reached hopen
  have hx : x.Consistent :=
    (Exchange.consistent_of_withCapacity? (if_neg (by omega))).after before
  have hs := Exchange.subscription?_perform_subscribe hopen (some session)
  have hnumber : number < following.subscriptions.length := Exchange.lt_length_of_subscription? hs
  have hsession : ∀ s, following.subscription? number = some s → s.session = some session := by
    intro s hs'
    cases hs.symm.trans hs'
    rfl
  have hplain : following.forgetSession number = plain :=
    Exchange.forgetSession_perform_subscribe hopen (some session)
  have hslots : following.bus.slots = slotsFor capacity :=
    (x.slots_perform _).trans (Exchange.slots_after _ before)
  refine ⟨?_, ?_, ?_, ?_⟩
  · rw [← hplain]
    exact Exchange.received_forgetSession hnumber hsession actions
  · rw [← hplain, Exchange.after_forgetSession hnumber]
  · obtain ⟨seen, left, hseen, hdelivered, hleft⟩ :=
      Exchange.delivered (hx.perform (.subscribe (some session))) hs actions
    rw [Exchange.backlog_perform_subscribe hopen, List.nil_append] at hseen
    refine ⟨seen, left, hseen, hdelivered, hleft, fun hfew => ?_⟩
    have hnone := Exchange.not_lagged hnumber (by rwa [hslots])
    exact ⟨hnone, hdelivered.filterMap_event? hnone⟩
  · intro s hs'
    have hfollows := Exchange.session_after hnumber hsession actions s hs'
    obtain ⟨followed, r⟩ := s
    obtain rfl : followed = some session := hfollows
    have hslots' : reached.bus.slots = slotsFor capacity :=
      (following.slots_after actions).trans hslots
    have hcases := @recvForFrom_cases reached.bus session _ r (Nat.lt_succ_self _)
    rw [hslots'] at hcases
    exact ⟨Exchange.received_replicate_take hs' (Nat.lt_succ_self _), hcases⟩

/-- On a bus with two slots, three events are emitted before the first take: the first event is
lost, the second is of another session, and the third is handed on.  The bus is closed then. -/
theorem session_receiver_filters_on_two_slots :
    let own : Event := .sessionStarted ⟨7⟩ "unreach-call"
    let foreign : Event := .sessionStarted ⟨8⟩ "unreach-call"
    let failure : Event := .signalRaised ⟨7⟩ "timeout" "klee"
    let actions : List Exchange.Action := [.emit own, .emit foreign, .emit failure, .take 0,
      .take 0, .take 0, .dropHandle, .take 0]
    1 ≤ 2 ∧ 2 ≤ largestCapacity ∧
      ∃ bus, withCapacity? 2 = some bus ∧ (Exchange.mk bus []).bus.handles ≠ 0 ∧
        let plain := (Exchange.mk bus []).perform (.subscribe none)
        let following := (Exchange.mk bus []).perform (.subscribe (some ⟨7⟩))
        plain.received 0 actions =
            [.lagged 1, .message foreign, .message failure, .closed] ∧
          following.received 0 actions = [.lagged 1, .message failure, .closed] ∧
          following.received 0 actions =
            (plain.received 0 actions).filter (Received.isFor (some ⟨7⟩)) ∧
          Exchange.Delivered (some ⟨7⟩) [own, foreign, failure]
            [.lagged 1, .message failure, .closed] := by
  intro own foreign failure actions
  have hlargest : 2 ≤ largestCapacity := by decide
  obtain ⟨bus, hbus, -, -, -, hlaw⟩ := session_receiver_filters (by decide) hlargest
  obtain rfl : { slots := 2 } = bus := Option.some.inj hbus
  obtain ⟨hfilter, -, ⟨seen, left, hseen, hdelivered, hleft, -⟩, -⟩ :=
    hlaw [] ⟨7⟩ actions (by decide)
  let following := (Exchange.mk { slots := 2 } []).perform (.subscribe (some ⟨7⟩))
  have hlast : (following.after actions).subscription? 0 = some ⟨some ⟨7⟩, ⟨3⟩⟩ := by decide
  have hreceived : following.received 0 actions = [.lagged 1, .message failure, .closed] := by
    decide
  have hemitted : following.emitted actions = [own, foreign, failure] := by decide
  have hnothing : left = [] := (hleft _ hlast).symm
  rw [hnothing, List.append_nil] at hseen
  obtain rfl : [own, foreign, failure] = seen := hemitted.symm.trans hseen
  refine ⟨by decide, hlargest, _, hbus, by decide, by decide, hreceived, hfilter, ?_⟩
  rw [← hreceived]
  exact hdelivered

end EventBus

end PhasedInduction

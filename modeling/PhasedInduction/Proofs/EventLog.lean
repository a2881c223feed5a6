import PhasedInduction.Campaign
import PhasedInduction.Proofs.Work

/-!
# The log of a campaign

A campaign drives many sessions, and their requests may come in any order.  What is
reported of one session is its opening and then what the work on it reports, in the order
of the work; requests for other sessions leave no trace there.  A request takes its place
in the order when it is finished, since only then its event is emitted.

Main results:

- Theorem {lit}`Campaign.exists_own_of_mem_eventsOf`: the events of a request belong to the session
  that it is about.
- Theorem {lit}`Campaign.linked_worksOn`: the work on a session leads from its state before a
  run to its state afterwards.
- Theorem {lit}`Campaign.log_of_open` and {lit}`Campaign.log_of_new`: the events of a session
  are those of its work, behind its opening if that is part of the run.
- Theorem {lit}`Campaign.log_of_sessions`: the law of a log in a usable configuration.
-/

namespace PhasedInduction

/-! ## What a bus takes up -/

namespace EventBus

theorem emitAll_append (bus : EventBus) (events more : List Event) :
    bus.emitAll (events ++ more) = (bus.emitAll events).emitAll more :=
  List.foldl_append

/-- While somebody listens, all emitted events are stored in order. -/
theorem stored_emitAll {bus : EventBus} (hlistened : bus.receivers ≠ 0) (events : List Event) :
    (bus.emitAll events).stored.toList = bus.stored.toList ++ events := by
  induction events generalizing bus with
  | nil => exact (List.append_nil _).symm
  | cons e events ih =>
    have hemit : (bus.emit e).2 =
        { bus with stored := bus.stored.push e, emitted := bus.emitted + 1 } := by
      simp [emit, hlistened]
    have hrest := @ih (bus.emit e).2 (by rw [hemit]; exact hlistened)
    rw [emitAll, List.foldl_cons]
    refine hrest.trans ?_
    rw [hemit, Array.toList_push, List.append_assoc, List.singleton_append]

end EventBus

namespace Campaign

/-! ## Runs of requests -/

/-- The campaign after requests. -/
def afterAll (c : Campaign) (requests : List Request) : Campaign := requests.foldl handle c

/-- The identifiers of the sessions, in the order of their opening. -/
def ids (c : Campaign) : List SessionId := c.sessions.map Session.id

/-- The identifier of the session that a request opens. -/
def Request.newId? : Request → Option SessionId
  | start id _ => some id
  | resume s => some s.id
  | on _ _ => none

/-- The identifiers stand at the numbers of their sessions. -/
theorem getElem?_ids_eq_some_iff {c : Campaign} {number : Nat} {id : SessionId} :
    c.ids[number]? = some id ↔ ∃ s, c.session? number = some s ∧ s.id = id := by
  rw [ids, List.getElem?_map]
  exact Option.map_eq_some_iff

/-- A call on an open session replaces it by what the call makes of it. -/
theorem handle_on_of_open {c : Campaign} {number : Nat} {s : Session}
    (h : c.session? number = some s) (call : Controller.Call) :
    c.handle (.on number call) =
      { c with
        sessions := c.sessions.set number (call.move s)
        around := c.around.absorb (c.controller.perform c.around.run s call) } := by
  simp only [handle, on, h, Option.map_some, Controller.state_perform]

/-- A call on a number that no session has is refused. -/
theorem handle_on_of_closed {c : Campaign} {number : Nat} (h : c.session? number = none)
    (call : Controller.Call) : c.handle (.on number call) = c := by
  simp only [handle, on, h, Option.map_none]

/-- What a call on an open session reports is what its work reports. -/
theorem eventsOf_on_of_open {c : Campaign} {number : Nat} {s : Session}
    (h : c.session? number = some s) (call : Controller.Call) :
    c.eventsOf (.on number call) = ((c.controller.workOf c.around.run s call).event?
      c.controller.invariantPhase).toList := by
  simp only [eventsOf, h, Controller.events_perform]

/-- A refused call reports nothing. -/
theorem eventsOf_on_of_closed {c : Campaign} {number : Nat} (h : c.session? number = none)
    (call : Controller.Call) : c.eventsOf (.on number call) = [] := by
  simp only [eventsOf, h]

/-- No request changes the controller. -/
theorem controller_handle (c : Campaign) (request : Request) :
    (c.handle request).controller = c.controller := by
  cases request with
  | start id property => rfl
  | resume s => rfl
  | on number call =>
    cases hs : c.session? number with
    | none => rw [handle_on_of_closed hs]
    | some s => rw [handle_on_of_open hs]

/-- A request opens at most one session, behind those that are open. -/
theorem ids_handle (c : Campaign) (request : Request) :
    (c.handle request).ids = c.ids ++ request.newId?.toList := by
  cases request with
  | start id property => exact List.map_append
  | resume s => exact List.map_append
  | on number call =>
    refine Eq.trans ?_ (List.append_nil _).symm
    cases hs : c.session? number with
    | none => rw [handle_on_of_closed hs]
    | some s =>
      obtain ⟨hlt, hget⟩ := List.getElem?_eq_some_iff.1 hs
      have hlt' : number < (c.sessions.map Session.id).length := by rwa [List.length_map]
      have hid : (c.sessions.map Session.id)[number] = s.id := by rw [List.getElem_map, hget]
      rw [handle_on_of_open hs, ids, List.map_set, Controller.Call.id_move, ← hid,
        List.set_getElem_self]
      rfl

/-- The sessions after requests are those before, and those that the requests opened. -/
theorem ids_afterAll (c : Campaign) (requests : List Request) :
    (c.afterAll requests).ids = c.ids ++ requests.filterMap Request.newId? := by
  induction requests generalizing c with
  | nil => exact (List.append_nil _).symm
  | cons request requests ih =>
    have hcons : (request :: requests).filterMap Request.newId? =
        request.newId?.toList ++ requests.filterMap Request.newId? := by
      cases h : request.newId? <;> simp [h]
    rw [hcons, ← List.append_assoc, ← ids_handle]
    exact ih (c.handle request)

/-- The bus takes up what a request reports. -/
theorem bus_handle (c : Campaign) (request : Request) :
    (c.handle request).around.bus =
      c.around.bus.map fun bus => bus.emitAll (c.eventsOf request) := by
  have hnothing : c.around.bus = c.around.bus.map fun bus => bus.emitAll [] := by
    cases c.around.bus <;> rfl
  cases request with
  | start id property => rfl
  | resume s => exact hnothing
  | on number call =>
    cases hs : c.session? number with
    | none =>
      rw [handle_on_of_closed hs, eventsOf_on_of_closed hs]
      exact hnothing
    | some s =>
      rw [handle_on_of_open hs, eventsOf_on_of_open hs, ← Controller.events_perform]
      rfl

/-- The bus takes up what the requests of a run report, in order. -/
theorem bus_afterAll (c : Campaign) (requests : List Request) :
    (c.afterAll requests).around.bus =
      c.around.bus.map fun bus => bus.emitAll (c.log requests) := by
  induction requests generalizing c with
  | nil =>
    change c.around.bus = c.around.bus.map fun bus => bus.emitAll []
    cases c.around.bus <;> rfl
  | cons request requests ih =>
    refine (ih (c.handle request)).trans ?_
    rw [bus_handle, log, Option.map_map]
    refine congrArg (fun f => c.around.bus.map f) (funext fun bus => ?_)
    exact (EventBus.emitAll_append bus _ _).symm

/-! ## The session that a request is about -/

/-- The number of the session that a request is about, which is a new one if it opens one. -/
def subject (c : Campaign) : Request → Nat
  | .start _ _ => c.sessions.length
  | .resume _ => c.sessions.length
  | .on number _ => number

/-- An identifier keeps its place when more sessions are opened. -/
theorem getElem?_ids_afterAll {c : Campaign} {number : Nat} {id : SessionId}
    (h : c.ids[number]? = some id) (requests : List Request) :
    (c.afterAll requests).ids[number]? = some id := by
  rw [ids_afterAll, List.getElem?_append_left (List.getElem?_eq_some_iff.1 h).1]
  exact h

/-- An event of a request belongs to the session that the request is about, and to no other one. -/
theorem exists_own_of_mem_eventsOf {c : Campaign} {request : Request} {e : Event}
    (he : e ∈ c.eventsOf request) :
    ∃ own, (c.handle request).ids[c.subject request]? = some own ∧
      ∀ id, e.belongsTo id = true ↔ own = id := by
  cases request with
  | start own property =>
    obtain rfl : e = .sessionStarted own property.display := List.mem_singleton.1 he
    refine ⟨own, ?_, Event.belongsTo_iff_of_session? rfl⟩
    have hlength : c.ids.length = c.sessions.length := List.length_map _
    rw [ids_handle, subject, ← hlength]
    simp [Request.newId?]
  | resume s => cases he
  | on number call =>
    cases hs : c.session? number with
    | none =>
      rw [eventsOf_on_of_closed hs] at he
      cases he
    | some s =>
      rw [eventsOf_on_of_open hs, Option.mem_toList] at he
      refine ⟨s.id, ?_, Work.belongsTo_of_event? he⟩
      rw [ids_handle, Request.newId?, Option.toList_none, List.append_nil, subject]
      exact getElem?_ids_eq_some_iff.2 ⟨s, hs, rfl⟩

/-- A session has no events from a request about another one. -/
theorem filter_eventsOf_of_ne {c : Campaign} {request : Request} {requests : List Request}
    (hids : (c.afterAll (request :: requests)).ids.Nodup) {number : Nat} {id : SessionId}
    (hid : (c.afterAll (request :: requests)).ids[number]? = some id)
    (hne : c.subject request ≠ number) :
    (c.eventsOf request).filter (fun e => e.belongsTo id) = [] := by
  rw [List.filter_eq_nil_iff]
  intro e he hbelongs
  obtain ⟨own, hown, hiff⟩ := exists_own_of_mem_eventsOf he
  obtain rfl : own = id := (hiff id).1 hbelongs
  have hsubject : (c.afterAll (request :: requests)).ids[c.subject request]? = some own :=
    getElem?_ids_afterAll hown requests
  have hlt := (List.getElem?_eq_some_iff.1 hsubject).1
  exact hne ((List.getElem?_inj hlt hids).1 (hsubject.trans hid.symm))

/-! ## The work on a session -/

/-- The work that a request is on the session with a number. -/
def work? (c : Campaign) (number : Nat) : Request → Option Work
  | .on target call =>
    if target = number then
      (c.session? number).map fun s => c.controller.workOf c.around.run s call
    else none
  | _ => none

/-- The work that requests are on the session with a number, in order. -/
def worksOn (c : Campaign) (number : Nat) : List Request → List Work
  | [] => []
  | request :: requests =>
    (c.work? number request).toList ++ (c.handle request).worksOn number requests

/-- A request is work on an open session, or it is about another one and leaves the session
as it is. -/
theorem request_cases {c : Campaign} {number : Nat} {s : Session}
    (h : c.session? number = some s) (request : Request) :
    (∃ call, request = .on number call ∧
        c.work? number request = some (c.controller.workOf c.around.run s call) ∧
        (c.handle request).session? number = some (call.move s)) ∨
      (c.subject request ≠ number ∧ c.work? number request = none ∧
        (c.handle request).session? number = some s) := by
  have hlt : number < c.sessions.length := (List.getElem?_eq_some_iff.1 h).1
  cases request with
  | start id property =>
    exact .inr ⟨Nat.ne_of_gt hlt, rfl, (List.getElem?_append_left hlt).trans h⟩
  | resume other => exact .inr ⟨Nat.ne_of_gt hlt, rfl, (List.getElem?_append_left hlt).trans h⟩
  | on target call =>
    by_cases htarget : target = number
    · subst htarget
      refine .inl ⟨call, rfl, ?_, ?_⟩
      · rw [work?, if_pos rfl, h, Option.map_some]
      · rw [handle_on_of_open h]
        exact List.getElem?_set_self hlt
    · refine .inr ⟨htarget, if_neg htarget, ?_⟩
      cases hs : c.session? target with
      | none => rwa [handle_on_of_closed hs]
      | some other =>
        rw [handle_on_of_open hs]
        exact (List.getElem?_set_ne htarget).trans h

/-- For a number that no session has, a request opens a session with that number, or it
takes up a session without report, or it leaves the number new and is not about it. -/
theorem request_cases_of_new {c : Campaign} {number : Nat} (hnew : c.sessions.length ≤ number)
    (request : Request) :
    (∃ id property, request = .start id property ∧ number = c.sessions.length) ∨
      (∃ s, request = .resume s) ∨
      (c.work? number request = none ∧ (c.handle request).sessions.length ≤ number ∧
        (c.eventsOf request = [] ∨ c.subject request ≠ number)) := by
  have hclosed : c.session? number = none := List.getElem?_eq_none hnew
  cases request with
  | resume s => exact .inr (.inl ⟨s, rfl⟩)
  | start id property =>
    by_cases hnumber : number = c.sessions.length
    · exact .inl ⟨id, property, rfl, hnumber⟩
    · have hlength : (c.handle (.start id property)).sessions.length = c.sessions.length + 1 :=
        List.length_append
      exact .inr (.inr ⟨rfl, by omega, .inr (Ne.symm hnumber)⟩)
  | on target call =>
    have hwork : c.work? number (.on target call) = none := by
      rw [work?, hclosed]
      split <;> rfl
    cases htarget : c.session? target with
    | none =>
      refine .inr (.inr ⟨hwork, ?_, .inl (eventsOf_on_of_closed htarget call)⟩)
      rwa [handle_on_of_closed htarget]
    | some other =>
      have hne : target ≠ number := by
        rintro rfl
        cases hclosed.symm.trans htarget
      refine .inr (.inr ⟨hwork, ?_, .inr hne⟩)
      rwa [handle_on_of_open htarget, List.length_set]

/-- The work on a session leads from its state before a run to its state afterwards. -/
theorem linked_worksOn {c : Campaign} {number : Nat} {s : Session}
    (h : c.session? number = some s) (requests : List Request) :
    ∃ last, (c.afterAll requests).session? number = some last ∧
      c.controller.Linked s (c.worksOn number requests) last := by
  induction requests generalizing c s with
  | nil => exact ⟨s, h, rfl⟩
  | cons request requests ih =>
    rcases request_cases h request with ⟨call, -, hwork, hnext⟩ | ⟨-, hwork, hnext⟩
    · obtain ⟨last, hlast, hlinked⟩ := ih hnext
      rw [controller_handle] at hlinked
      refine ⟨last, hlast, ?_⟩
      rw [worksOn, hwork]
      refine ⟨⟨_, call, rfl⟩, ?_⟩
      have hafter : (c.controller.workOf c.around.run s call).after = call.move s :=
        c.controller.state_perform c.around.run s call
      rwa [hafter]
    · obtain ⟨last, hlast, hlinked⟩ := ih hnext
      rw [controller_handle] at hlinked
      refine ⟨last, hlast, ?_⟩
      rw [worksOn, hwork]
      exact hlinked

/-! ## The events of a session -/

/-- Among the events of a run, those of an open session are what the work on it reports. -/
theorem log_of_open {c : Campaign} {number : Nat} {s : Session}
    (h : c.session? number = some s) {requests : List Request}
    (hids : (c.afterAll requests).ids.Nodup) :
    (c.log requests).filter (fun e => e.belongsTo s.id) =
      (c.worksOn number requests).filterMap
        (Work.event? c.controller.invariantPhase) := by
  induction requests generalizing c s with
  | nil => rfl
  | cons request requests ih =>
    rw [log, worksOn, List.filter_append, List.filterMap_append]
    rcases request_cases h request with ⟨call, rfl, hwork, hnext⟩ | ⟨hne, hwork, hnext⟩
    · have hrest := ih hnext hids
      rw [Controller.Call.id_move, controller_handle] at hrest
      rw [hrest, hwork, eventsOf_on_of_open h]
      refine congrArg (· ++ _) ?_
      cases hevent : (c.controller.workOf c.around.run s call).event?
          c.controller.invariantPhase with
      | none => simp [hevent]
      | some e =>
        have hown : e.belongsTo s.id = true := (Work.belongsTo_of_event? hevent s.id).2 rfl
        simp [hevent, hown]
    · have hrest := ih hnext hids
      rw [controller_handle] at hrest
      have hid : c.ids[number]? = some s.id := getElem?_ids_eq_some_iff.2 ⟨s, h, rfl⟩
      rw [hrest, hwork, filter_eventsOf_of_ne hids (getElem?_ids_afterAll hid _) hne]
      rfl

/-- The events of a session that the first request of a run opens are its opening and then
what the work on it reports. -/
theorem log_of_start {c : Campaign} {id : SessionId} {property : Property}
    {requests : List Request}
    (hids : (c.afterAll (.start id property :: requests)).ids.Nodup) {s : Session}
    (hs : (c.afterAll (.start id property :: requests)).session? c.sessions.length = some s) :
    (c.log (.start id property :: requests)).filter (fun e => e.belongsTo s.id) =
        .sessionStarted s.id s.property.display ::
          (c.worksOn c.sessions.length (.start id property :: requests)).filterMap
            (Work.event? c.controller.invariantPhase) ∧
      c.controller.Linked (.opened s.id s.property)
        (c.worksOn c.sessions.length (.start id property :: requests)) s := by
  have hnext : (c.handle (.start id property)).session? c.sessions.length =
      some (.opened id property) := List.getElem?_concat_length
  obtain ⟨last, hlast, hlinked⟩ := linked_worksOn hnext requests
  obtain rfl : last = s := Option.some.inj (hlast.symm.trans hs)
  obtain ⟨hid, hproperty⟩ := Controller.id_and_property_of_linked _ hlinked
  have hid' : last.id = id := hid
  have hproperty' : last.property = property := hproperty
  have hrest := log_of_open hnext hids
  rw [hid', hproperty']
  refine ⟨?_, hlinked⟩
  have hhead : (c.eventsOf (.start id property)).filter (fun e => e.belongsTo id) =
      [.sessionStarted id property.display] := by
    simp [eventsOf, Controller.start, Event.belongsTo, Event.session?]
  rw [log, List.filter_append, hhead]
  exact congrArg (List.cons _) hrest

/-- Among the events of a run, those of a session that was opened in it are its opening and
then what the work on it reports, which leads from the opened session to the last one. -/
theorem log_of_new {c : Campaign} {number : Nat} (hnew : c.sessions.length ≤ number)
    {requests : List Request} (hstarted : ∀ s, .resume s ∉ requests)
    (hids : (c.afterAll requests).ids.Nodup) {s : Session}
    (hs : (c.afterAll requests).session? number = some s) :
    (c.log requests).filter (fun e => e.belongsTo s.id) =
        .sessionStarted s.id s.property.display ::
          (c.worksOn number requests).filterMap
            (Work.event? c.controller.invariantPhase) ∧
      c.controller.Linked (.opened s.id s.property) (c.worksOn number requests) s := by
  induction requests generalizing c with
  | nil => cases (List.getElem?_eq_none hnew : c.session? number = none).symm.trans hs
  | cons request requests ih =>
    rcases request_cases_of_new hnew request with
      ⟨id, property, rfl, rfl⟩ | ⟨other, rfl⟩ | ⟨hwork, hlater, hother⟩
    · exact log_of_start hids hs
    · exact absurd List.mem_cons_self (hstarted other)
    · have hnothing : (c.eventsOf request).filter (fun e => e.belongsTo s.id) = [] := by
        rcases hother with hnone | hne
        · rw [hnone, List.filter_nil]
        · exact filter_eventsOf_of_ne hids (getElem?_ids_eq_some_iff.2 ⟨s, hs, rfl⟩) hne
      have hrest : ∀ s, .resume s ∉ requests := fun s h => hstarted s (List.mem_cons_of_mem _ h)
      rw [log, worksOn, List.filter_append, hnothing, hwork, ← c.controller_handle request]
      exact ih hlater hrest hids hs

/-- Every event of a run belongs to a session that is open afterwards. -/
theorem exists_session_of_mem_log {c : Campaign} {requests : List Request} {e : Event}
    (he : e ∈ c.log requests) :
    ∃ number s, (c.afterAll requests).session? number = some s ∧ e.belongsTo s.id = true := by
  induction requests generalizing c with
  | nil => cases he
  | cons request requests ih =>
    rw [log, List.mem_append] at he
    rcases he with hhead | hrest
    · obtain ⟨own, hown, hiff⟩ := exists_own_of_mem_eventsOf hhead
      obtain ⟨s, hs, rfl⟩ := getElem?_ids_eq_some_iff.1 (getElem?_ids_afterAll hown requests)
      exact ⟨c.subject request, s, hs, (hiff s.id).2 rfl⟩
    · exact ih hrest

/-! ## The law of a log -/

/-- A usable configuration starts a campaign with its controller and without sessions. -/
theorem exists_ofConfig {config : Config} (hvalid : config.validate = .ok ())
    (around : Surroundings) :
    ∃ controller, ofConfig config around = .ok { controller, around } ∧
      controller.invariantPhase.number = config.invariants.phase := by
  obtain ⟨controller, hcontroller⟩ := Controller.exists_ofConfig hvalid
  refine ⟨controller, ?_, (Controller.ofConfig_eq_ok_iff.1 hcontroller).2.1⟩
  rw [ofConfig, hcontroller]

/-- In a usable configuration with a bus, let sessions of different identifiers be started
and called in any order.  The bus counts all events that are reported, and stores them in
order if somebody listens.  Every event belongs to one of the sessions.  The events of a
session are its opening and then what the work on it reports, in the order of the work;
they replay the session: the moves lead from phase one to its phase, and a signal is
reported once if threads were hit and never else. -/
theorem log_of_sessions {config : Config} (hvalid : config.validate = .ok ())
    {around : Surroundings} {bus : EventBus} (hbus : around.bus = some bus) :
    ∃ controller, ofConfig config around = .ok { controller, around } ∧
      controller.invariantPhase.number = config.invariants.phase ∧
      ∀ requests : List Request, (∀ s, .resume s ∉ requests) →
        (requests.filterMap Request.newId?).Nodup →
        let campaign : Campaign := { controller, around }
        let last := campaign.afterAll requests
        let log := campaign.log requests
        (∃ later, last.around.bus = some later ∧ later.emitted = bus.emitted + log.length ∧
            (bus.receivers ≠ 0 → later.stored.toList = bus.stored.toList ++ log)) ∧
          (∀ e ∈ log, ∃ number s, last.session? number = some s ∧ e.belongsTo s.id = true) ∧
          ∀ number s, last.session? number = some s →
            let events := log.filter fun e => e.belongsTo s.id
            let works := campaign.worksOn number requests
            events = .sessionStarted s.id s.property.display ::
                works.filterMap (Work.event? controller.invariantPhase) ∧
              controller.Linked (.opened s.id s.property) works s ∧
              Leads 1 (events.filterMap Event.move?) s.phase.number ∧
              events.countP Event.isSignal = if s.hitThreads then 1 else 0 := by
  obtain ⟨controller, hcampaign, hphase⟩ := exists_ofConfig hvalid around
  refine ⟨controller, hcampaign, hphase, fun requests hstarted hids => ?_⟩
  intro campaign last log
  have hdistinct : last.ids.Nodup := by
    have hlast : last.ids = requests.filterMap Request.newId? := campaign.ids_afterAll requests
    rwa [hlast]
  refine ⟨?_, fun e he => exists_session_of_mem_log he, fun number s hs => ?_⟩
  · have hlater : last.around.bus = some (bus.emitAll log) := by
      have hmap : last.around.bus = around.bus.map fun bus => bus.emitAll log :=
        campaign.bus_afterAll requests
      rw [hmap, hbus, Option.map_some]
    exact ⟨_, hlater, Surroundings.emitted_emitAll bus log,
      fun hlistened => EventBus.stored_emitAll hlistened log⟩
  · intro events works
    obtain ⟨hevents, hlinked⟩ := log_of_new (Nat.zero_le number) hstarted hdistinct hs
    have hleads := controller.leads_of_linked controller.invariantPhase hlinked
    have hsignals := controller.countP_isSignal_of_linked controller.invariantPhase hlinked
    refine ⟨hevents, hlinked, ?_, ?_⟩
    · rw [show events = _ from hevents]
      exact hleads
    · have hcount : events.countP Event.isSignal = s.hitThreads.toNat := by
        rw [show events = _ from hevents, List.countP_cons_of_neg Bool.false_ne_true]
        exact (Nat.zero_add _).symm.trans hsignals
      rw [hcount]
      cases s.hitThreads <;> rfl

/-- Two sessions take turns, the generator fails for the first one in phase two, and an
outcome shows threads twice: the events of the first session replay its phase and signal. -/
theorem log_of_two_sessions :
    let around : Surroundings :=
      { runner := .steady fun _ => .error "not found", bus := some EventBus.standard }
    let threads : Controller.Call :=
      .recordOutcome ⟨"klee", "14", .empty, .empty⟩ ⟨.threadingUnsupported, "EPTHREAD"⟩ {}
    let requests : List Request :=
      [.start ⟨1⟩ ⟨[.termination]⟩, .start ⟨2⟩ ⟨[.unreachCall]⟩, .on 0 .afterSlicing, .on 1 threads,
        .on 0 (.afterTransformation ⟨"main.bc"⟩), .on 0 threads, .on 1 .afterSlicing, .on 0 threads]
    ({} : Config).validate = .ok () ∧ around.bus = some EventBus.standard ∧
      (∀ s, .resume s ∉ requests) ∧ (requests.filterMap Request.newId?).Nodup ∧
      ∃ controller last, ofConfig {} around = .ok { controller, around } ∧
        (afterAll { controller, around } requests).session? 0 = some last ∧
        let events := (log { controller, around } requests).filter fun e => e.belongsTo last.id
        Leads 1 (events.filterMap Event.move?) last.phase.number ∧
          events.countP Event.isSignal = if last.hitThreads then 1 else 0 := by
  intro around threads requests
  have hstarted : ∀ s, .resume s ∉ requests := by simp [requests]
  have hids : (requests.filterMap Request.newId?).Nodup := by decide
  obtain ⟨controller, hcampaign, -, hlog⟩ :=
    log_of_sessions Config.validate_default (show around.bus = some EventBus.standard from rfl)
  have hfirst : (afterAll { controller, around } requests).ids[0]? = some ⟨1⟩ := by
    rw [ids_afterAll]
    rfl
  obtain ⟨last, hlast, -⟩ := getElem?_ids_eq_some_iff.1 hfirst
  obtain ⟨-, -, hsession⟩ := hlog requests hstarted hids
  obtain ⟨-, -, hleads, hsignals⟩ := hsession 0 last hlast
  exact ⟨Config.validate_default, rfl, hstarted, hids, controller, last, hcampaign, hlast,
    hleads, hsignals⟩

end Campaign

end PhasedInduction

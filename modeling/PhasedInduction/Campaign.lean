import PhasedInduction.Controller.Calls

/-!
# Campaigns

A campaign is a controller with the sessions that it drives and the surroundings that
they share.  Sessions are known by their number in the order of opening; a request for a
number that no session has is refused.

Main results:

- Theorem {lit}`Campaign.sessions_on`: a call changes the session it is made on and no other.
-/

namespace PhasedInduction

/-- A controller at work on sessions. -/
structure Campaign where
  controller : Controller
  around : Surroundings
  sessions : List Session := []

namespace Campaign

/-- The campaign of a usable configuration. -/
def ofConfig (config : Config) (around : Surroundings) : Except CampaignError Campaign :=
  match Controller.ofConfig config with
  | .ok controller => .ok { controller, around }
  | .error e => .error e

/-- The session with a number. -/
def session? (c : Campaign) (number : Nat) : Option Session := c.sessions[number]?

/-! ## Opening sessions -/

/-- Take up a session without a report. -/
def resume (c : Campaign) (s : Session) : Campaign :=
  { c with sessions := c.sessions ++ [s] }

/-- Start a session for a property. -/
def start (c : Campaign) (id : SessionId) (property : Property) : Campaign :=
  let step := c.controller.start id property
  { c with sessions := c.sessions ++ [step.state], around := c.around.absorb step }

/-! ## Work on sessions -/

/-- Let a session be changed by its owner, who reports nothing. -/
def replace (c : Campaign) (number : Nat) (s : Session) : Campaign :=
  { c with sessions := c.sessions.set number s }

/-- Make a call on a session: its answer, and the campaign afterwards. -/
def on (c : Campaign) (number : Nat) (call : Controller.Call) :
    Option (Controller.Answer × Campaign) :=
  (c.session? number).map fun s =>
    let step := c.controller.perform c.around.run s call
    (step.answer,
      { c with
        sessions := c.sessions.set number step.state
        around := c.around.absorb step })

/-- A call changes the session it is made on and no other. -/
theorem sessions_on {c later : Campaign} {number other : Nat} {call : Controller.Call}
    {answer : Controller.Answer} (h : c.on number call = some (answer, later))
    (hne : number ≠ other) : later.session? other = c.session? other := by
  unfold on at h
  obtain ⟨s, _, hs⟩ := Option.map_eq_some_iff.1 h
  simp only [Prod.mk.injEq] at hs
  obtain ⟨_, rfl⟩ := hs
  simp [session?, List.getElem?_set_ne hne]

/-! ## Requests -/

/-- What can be asked of a campaign. -/
inductive Request where
  | start (id : SessionId) (property : Property)
  | resume (session : Session)
  | on (number : Nat) (call : Controller.Call)
deriving DecidableEq, Repr

/-- The campaign after a request; one for a number without session changes nothing. -/
def handle (c : Campaign) : Request → Campaign
  | .start id property => c.start id property
  | .resume s => c.resume s
  | .on number call =>
    match c.on number call with
    | some (_, later) => later
    | none => c

/-- The events that a request reports. -/
def eventsOf (c : Campaign) : Request → List Event
  | .start id property => (c.controller.start id property).events
  | .resume _ => []
  | .on number call =>
    match c.session? number with
    | some s => (c.controller.perform c.around.run s call).events
    | none => []

/-- The events that requests report, in order. -/
def log (c : Campaign) : List Request → List Event
  | [] => []
  | request :: requests => c.eventsOf request ++ (c.handle request).log requests

end Campaign

end PhasedInduction

import PhasedInduction.Event.SessionId
import PhasedInduction.Event.Timestamp

/-!
# Events of verification sessions

What a campaign reports while it runs, and to which session each report belongs.  An
error belongs to a session through its context alone, which then is the text of the
session's identifier.

Main results:

- Theorem {lit}`Event.belongsTo_error_iff`: which errors belong to a session.
- Theorem {lit}`Event.ofJson?_toJson`: an event survives being written and read.
-/

namespace PhasedInduction

/-- A report of a session. -/
inductive Event where
  /-- A session was opened for a property. -/
  | sessionStarted (session : SessionId) (property : String)
  /-- Passes were selected and the session moved on. -/
  | phaseAdvanced (session : SessionId) (fromPhase toPhase : UInt32) (passes : List String)
  /-- The generator wrote a new artifact. -/
  | invariantsGenerated (session : SessionId) (phase : UInt32) (input output : String)
  /-- A failure signal was raised for the first time. -/
  | signalRaised (session : SessionId) (signal verifier : String)
  /-- Something failed. -/
  | error (message : String) (context : Option String)
deriving DecidableEq, Repr

namespace Event

/-- The session that an event names. -/
def session? : Event → Option SessionId
  | sessionStarted session _ => some session
  | phaseAdvanced session _ _ _ => some session
  | invariantsGenerated session _ _ _ => some session
  | signalRaised session _ _ => some session
  | error _ _ => none

/-- Whether an event concerns a session. -/
def belongsTo (e : Event) (session : SessionId) : Bool :=
  match e with
  | error _ context => context = some session.text
  | e => e.session? = some session

/-- An event that names a session belongs to that one and to no other one. -/
theorem belongsTo_iff_of_session? {e : Event} {own : SessionId} (h : e.session? = some own)
    (session : SessionId) : e.belongsTo session = true ↔ own = session := by
  cases e with
  | error message context => cases h
  | _ => simp [belongsTo, h]

/-- An error belongs to the session whose identifier is its context. -/
theorem belongsTo_error_iff (message : String) (context : Option String)
    (session : SessionId) :
    (error message context).belongsTo session = true ↔ context = some session.text := by
  simp [belongsTo]

/-- An error in the context of a session belongs to that session and to no other one. -/
theorem belongsTo_error_text_iff (message : String) (a b : SessionId) :
    (error message (some a.text)).belongsTo b = true ↔ a = b := by
  rw [belongsTo_error_iff, Option.some.injEq]
  exact ⟨SessionId.text_injective, congrArg SessionId.text⟩

/-! ## Written form -/

/-- An event as an object whose type tells the kind of event. -/
def toJson : Event → Json
  | sessionStarted session property =>
    .object [("type", .string "session.started"), ("session_id", session.toJson),
      ("property", .string property)]
  | phaseAdvanced session fromPhase toPhase passes =>
    .object [("type", .string "phase.advanced"), ("session_id", session.toJson),
      ("from_phase", .ofWord32 fromPhase), ("to_phase", .ofWord32 toPhase),
      ("passes", .ofStrings passes)]
  | invariantsGenerated session phase input output =>
    .object [("type", .string "invariants.generated"), ("session_id", session.toJson),
      ("phase", .ofWord32 phase), ("input", .string input), ("output", .string output)]
  | signalRaised session signal verifier =>
    .object [("type", .string "failure.signal_raised"), ("session_id", session.toJson),
      ("signal", .string signal), ("verifier", .string verifier)]
  | error message context =>
    .object [("type", .string "error"), ("message", .string message),
      ("context", .ofOption .string context)]

/-- The event of an object, by its type.  Data of other kinds is no event. -/
def ofJson? (j : Json) : Option Event := do
  let members ← j.object?
  let type ← Json.required members "type" Json.string?
  if type = "session.started" then
    let session ← Json.required members "session_id" SessionId.ofJson?
    let property ← Json.required members "property" Json.string?
    return sessionStarted session property
  else if type = "phase.advanced" then
    let session ← Json.required members "session_id" SessionId.ofJson?
    let fromPhase ← Json.required members "from_phase" Json.word32?
    let toPhase ← Json.required members "to_phase" Json.word32?
    let passes ← Json.required members "passes" Json.strings?
    return phaseAdvanced session fromPhase toPhase passes
  else if type = "invariants.generated" then
    let session ← Json.required members "session_id" SessionId.ofJson?
    let phase ← Json.required members "phase" Json.word32?
    let input ← Json.required members "input" Json.string?
    let output ← Json.required members "output" Json.string?
    return invariantsGenerated session phase input output
  else if type = "failure.signal_raised" then
    let session ← Json.required members "session_id" SessionId.ofJson?
    let signal ← Json.required members "signal" Json.string?
    let verifier ← Json.required members "verifier" Json.string?
    return signalRaised session signal verifier
  else if type = "error" then
    let message ← Json.required members "message" Json.string?
    let context ← Json.optional members "context" Json.string?
    return error message context
  else none

/-- An event survives being written and read. -/
theorem ofJson?_toJson (e : Event) : ofJson? e.toJson = some e := by
  cases e with
  | error message context =>
    cases context <;>
      simp [ofJson?, toJson, Json.required, Json.optional, Json.ofOption,
        Json.string?]
  | _ => simp [ofJson?, toJson, Json.required]

end Event

/-- An event with an identifier of its own and its time. -/
structure EventEnvelope where
  id : SessionId
  timestamp : Timestamp
  event : Event
deriving DecidableEq, Repr

namespace EventEnvelope

/-- An envelope as an object. -/
def toJson (e : EventEnvelope) : Json :=
  .object [("id", e.id.toJson), ("timestamp", e.timestamp.toJson), ("event", e.event.toJson)]

/-- The envelope of an object. -/
def ofJson? (j : Json) : Option EventEnvelope := do
  let members ← j.object?
  let id ← Json.required members "id" SessionId.ofJson?
  let timestamp ← Json.required members "timestamp" Timestamp.ofJson?
  let event ← Json.required members "event" Event.ofJson?
  return ⟨id, timestamp, event⟩

end EventEnvelope

end PhasedInduction

import PhasedInduction.Event.SessionId
import PhasedInduction.Outcome
import PhasedInduction.Phase
import PhasedInduction.Property
import PhasedInduction.Verifier

/-!
# Verification sessions

A session is one verification task: its property, the phase it has reached and the
failure signals raised so far.  The phase only moves forward, and the identifier and the
property stay as they were when the session was opened.

Main results:

- Theorem {lit}`Session.toNat_phase_advance`: advancing moves on by one phase, up to the
  largest number.
- Theorem {lit}`Session.recordOutcome_fst`: which outcome raises a signal.
- Theorem {lit}`Session.hitThreads_recordOutcome`: recording never clears a signal.
-/

namespace PhasedInduction

/-- One verification task. -/
structure Session where
  id : SessionId
  property : Property
  phase : Phase := .initial
  signals : FailureSignals := {}
deriving DecidableEq, Repr

namespace Session

/-- A session at the first phase. -/
def opened (id : SessionId) (property : Property) : Session := { id, property }

/-- The session at another phase, to take up work where it was left. -/
def startingAt (s : Session) (phase : Phase) : Session := { s with phase }

/-- The session at the next phase. -/
def advance (s : Session) : Session := { s with phase := s.phase.next }

/-- Whether threaded code was hit. -/
def hitThreads (s : Session) : Bool := s.signals.hitThreads

@[simp]
theorem phase_opened (id : SessionId) (property : Property) :
    (opened id property).phase = .initial := rfl

@[simp]
theorem id_advance (s : Session) : s.advance.id = s.id := rfl

@[simp]
theorem property_advance (s : Session) : s.advance.property = s.property := rfl

@[simp]
theorem signals_advance (s : Session) : s.advance.signals = s.signals := rfl

@[simp]
theorem phase_advance (s : Session) : s.advance.phase = s.phase.next := rfl

/-- Advancing moves on by one phase, up to the largest number. -/
theorem toNat_phase_advance (s : Session) :
    s.advance.phase.toNat = min (s.phase.toNat + 1) (UInt32.size - 1) := by
  simp

/-! ## Finished runs -/

/-- Take a finished run into account: the signal it raises if that is new, and the session
afterwards.  Which verifier ran and what it used does not matter. -/
def recordOutcome (s : Session) (_ : VerifierConfig) (outcome : VerifierOutcome)
    (_ : WatchdogReport) : Option FailureSignal × Session :=
  let (raised, signals) := s.signals.record outcome.outcomeClass
  (raised, { s with signals })

/-- Take a finished run into account that is known by its description. -/
def recordDescription (s : Session) (verifier : VerifierConfig) (description : String)
    (watchdog : WatchdogReport) : Option FailureSignal × Session :=
  s.recordOutcome verifier (.ofDescription description) watchdog

/-- An outcome raises the signal of threaded code if it shows threads and none did before. -/
theorem recordOutcome_fst (s : Session) (verifier : VerifierConfig)
    (outcome : VerifierOutcome) (watchdog : WatchdogReport) :
    (s.recordOutcome verifier outcome watchdog).1 =
      if outcome.outcomeClass = .threadingUnsupported ∧ s.hitThreads = false
      then some .hitThreads else none :=
  s.signals.record_fst outcome.outcomeClass

/-- Recording raises the signal for its class and never clears it. -/
@[simp]
theorem hitThreads_recordOutcome (s : Session) (verifier : VerifierConfig)
    (outcome : VerifierOutcome) (watchdog : WatchdogReport) :
    (s.recordOutcome verifier outcome watchdog).2.hitThreads =
      (s.hitThreads || decide (outcome.outcomeClass = .threadingUnsupported)) :=
  s.signals.hitThreads_record outcome.outcomeClass

@[simp]
theorem id_recordOutcome (s : Session) (verifier : VerifierConfig)
    (outcome : VerifierOutcome) (watchdog : WatchdogReport) :
    (s.recordOutcome verifier outcome watchdog).2.id = s.id := rfl

@[simp]
theorem property_recordOutcome (s : Session) (verifier : VerifierConfig)
    (outcome : VerifierOutcome) (watchdog : WatchdogReport) :
    (s.recordOutcome verifier outcome watchdog).2.property = s.property := rfl

@[simp]
theorem phase_recordOutcome (s : Session) (verifier : VerifierConfig)
    (outcome : VerifierOutcome) (watchdog : WatchdogReport) :
    (s.recordOutcome verifier outcome watchdog).2.phase = s.phase := rfl

end Session

end PhasedInduction

import PhasedInduction.Json.Basic
import PhasedInduction.Text.Split

/-!
# Outcomes of verifier runs and failure signals

A finished run is classified by its description.  One class raises a failure
signal, and a raised signal stays raised.

Main results:

- Theorem {lit}`OutcomeClass.classify_eq_threadingUnsupported_iff`: the class depends only
  on whether the marker occurs in the description.
- Theorem {lit}`FailureSignals.record_fst`: a signal is reported by the call that raises it.
- Theorem {lit}`FailureSignals.hitThreads_record`: recording never clears a signal.
-/

namespace PhasedInduction

/-! ## Outcomes -/

/-- The classes of finished verifier runs. -/
inductive OutcomeClass where
  | threadingUnsupported
  | unclassified
deriving DecidableEq, Repr

namespace OutcomeClass

/-- All classes in the order of their declaration. -/
def all : List OutcomeClass := [threadingUnsupported, unclassified]

/-- The name of a class. -/
def name : OutcomeClass → String
  | threadingUnsupported => "threading_unsupported"
  | unclassified => "unclassified"

/-- What a verifier prints when it gives up on threaded code. -/
def threadsMarker : String := "EPTHREAD"

/-- The class of a description: whether the marker occurs in it. -/
def classify (description : String) : OutcomeClass :=
  if Text.occursIn threadsMarker.toList description.toList then threadingUnsupported
  else unclassified

/-- The class depends only on whether the marker occurs in the description. -/
theorem classify_eq_threadingUnsupported_iff (description : String) :
    classify description = threadingUnsupported ↔
      threadsMarker.toList <:+: description.toList := by
  rw [← Text.occursIn_iff]
  unfold classify
  split <;> simp_all

/-- A class as its name. -/
def toJson (c : OutcomeClass) : Json := .string c.name

/-- The class that a choice names. -/
def ofJson? (j : Json) : Option OutcomeClass :=
  j.choice?.bind fun text => all.find? fun c => c.name = text

@[simp]
theorem ofJson?_toJson (c : OutcomeClass) : ofJson? c.toJson = some c := by
  cases c <;> simp [ofJson?, toJson, all, name]

end OutcomeClass

/-- A finished verifier run. -/
structure VerifierOutcome where
  outcomeClass : OutcomeClass
  description : String
deriving DecidableEq, Repr

namespace VerifierOutcome

/-- The outcome of a described run, classified by its description. -/
def ofDescription (description : String) : VerifierOutcome :=
  ⟨.classify description, description⟩

/-- An outcome as an object. -/
def toJson (o : VerifierOutcome) : Json :=
  .object [("class", o.outcomeClass.toJson), ("description", .string o.description)]

/-- The outcome of an object; its class is taken as it stands there. -/
def ofJson? (j : Json) : Option VerifierOutcome := do
  let members ← j.object?
  let outcomeClass ← Json.required members "class" OutcomeClass.ofJson?
  let description ← Json.required members "description" Json.string?
  return ⟨outcomeClass, description⟩

/-- An outcome survives being written and read. -/
theorem ofJson?_toJson (o : VerifierOutcome) : ofJson? o.toJson = some o := by
  simp [ofJson?, toJson, Json.required]

end VerifierOutcome

/-- The resources a finished run used. -/
structure WatchdogReport where
  elapsedMs : UInt64 := 0
  timedOut : Bool := false
deriving DecidableEq, Repr

namespace WatchdogReport

/-- A report as an object. -/
def toJson (w : WatchdogReport) : Json :=
  .object [("elapsed_ms", .ofWord64 w.elapsedMs), ("timed_out", .bool w.timedOut)]

/-- The report of an object. -/
def ofJson? (j : Json) : Option WatchdogReport := do
  let members ← j.object?
  let elapsedMs ← Json.required members "elapsed_ms" Json.word64?
  let timedOut ← Json.required members "timed_out" Json.bool?
  return ⟨elapsedMs, timedOut⟩

/-- A report survives being written and read. -/
theorem ofJson?_toJson (w : WatchdogReport) : ofJson? w.toJson = some w := by
  simp [ofJson?, toJson, Json.required]

end WatchdogReport

/-! ## Failure signals -/

/-- What a class of outcomes can signal for the rest of a session. -/
inductive FailureSignal where
  | hitThreads
deriving DecidableEq, Repr

namespace FailureSignal

/-- The name of a signal. -/
def name : FailureSignal → String
  | hitThreads => "hit_threads"

/-- The signal that a class of outcomes raises. -/
def ofClass? : OutcomeClass → Option FailureSignal
  | .threadingUnsupported => some hitThreads
  | .unclassified => none

/-- A signal as its name. -/
def toJson (s : FailureSignal) : Json := .string s.name

/-- The signal that a choice names. -/
def ofJson? (j : Json) : Option FailureSignal :=
  j.choice?.bind fun text => if text = hitThreads.name then some hitThreads else none

@[simp]
theorem ofJson?_toJson (s : FailureSignal) : ofJson? s.toJson = some s := by
  cases s
  simp [ofJson?, toJson]

end FailureSignal

/-- The signals raised so far. -/
structure FailureSignals where
  hitThreads : Bool := false
deriving DecidableEq, Repr

namespace FailureSignals

/-- Whether a signal is raised. -/
def isRaised (s : FailureSignals) : FailureSignal → Bool
  | .hitThreads => s.hitThreads

/-- The signals with one of them raised. -/
def raise (s : FailureSignals) : FailureSignal → FailureSignals
  | .hitThreads => { s with hitThreads := true }

/-- Take an outcome class into account: the signal it raises if that is new, and the
signals afterwards. -/
def record (s : FailureSignals) (c : OutcomeClass) : Option FailureSignal × FailureSignals :=
  match FailureSignal.ofClass? c with
  | none => (none, s)
  | some signal => if s.isRaised signal then (none, s) else (some signal, s.raise signal)

/-- A signal is reported by the call that raises it. -/
theorem record_fst (s : FailureSignals) (c : OutcomeClass) :
    (s.record c).1 =
      if c = .threadingUnsupported ∧ s.hitThreads = false then some .hitThreads else none := by
  cases c <;> cases h : s.hitThreads <;>
    simp [record, FailureSignal.ofClass?, isRaised, h]

/-- Recording raises the signal for its class and never clears it. -/
@[simp]
theorem hitThreads_record (s : FailureSignals) (c : OutcomeClass) :
    (s.record c).2.hitThreads = (s.hitThreads || decide (c = .threadingUnsupported)) := by
  cases c <;> cases h : s.hitThreads <;>
    simp [record, FailureSignal.ofClass?, isRaised, raise, h]

/-- The signals as an object. -/
def toJson (s : FailureSignals) : Json := .object [("hit_threads", .bool s.hitThreads)]

end FailureSignals

end PhasedInduction

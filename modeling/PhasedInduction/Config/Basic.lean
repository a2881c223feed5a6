import PhasedInduction.Phase
import PhasedInduction.Property
import PhasedInduction.Text.Blank

/-!
# Campaign configuration

The numbers, names and preferences that steer a campaign, in four sections, with the
conditions that a usable configuration meets.

Main results:

- Theorem {lit}`Config.fault?_default`: the default configuration is usable.
- Theorem {lit}`Config.validate_eq_ok_iff`: a configuration is accepted exactly when it has
  no fault.
-/

namespace PhasedInduction

/-! ## Sections -/

/-- The bounds of the base case and of the step case. -/
structure InductionBounds where
  maxBackedgeCount : UInt32 := 8
  k : UInt32 := 4
deriving DecidableEq, Repr

/-- How and when the external invariant generator runs. -/
structure InvariantSettings where
  program : String := "clam.py"
  phase : UInt32 := 2
  wideningDelay : UInt32 := 32
  outputSuffix : String := "-inv.bc"
deriving DecidableEq, Repr

/-- How many equal verifier runs are planned, and the weight of each. -/
structure FanoutSettings where
  variants : UInt64 := 2
  weight : UInt32 := 333
deriving DecidableEq, Repr

/-- The order in which property classes are looked at for additional passes. -/
structure AugmentationPolicy where
  priority : List PropertyClass := [.memorySafety, .termination]
deriving DecidableEq, Repr

/-- What steers a campaign. -/
structure Config where
  induction : InductionBounds := {}
  invariants : InvariantSettings := {}
  fanout : FanoutSettings := {}
  augmentation : AugmentationPolicy := {}
deriving DecidableEq, Repr

/-! ## Faults -/

/-- What makes a configuration unusable. -/
inductive ConfigFault where
  | phaseZero
  | blankProgram
  | emptySuffix
  | repeatedClass (c : PropertyClass)
deriving DecidableEq, Repr

/-- The text shown for a fault. -/
def ConfigFault.message : ConfigFault → String
  | phaseZero => "invariants.phase: " ++ DomainError.phaseZero.message
  | blankProgram => "invariants.program must not be empty"
  | emptySuffix => "invariants.output_suffix must not be empty"
  | repeatedClass c => "augmentation.priority lists " ++ c.name ++ " twice"

/-- The first class that occurred before, in the list or in {lit}`seen`. -/
def firstRepeated? (seen : List PropertyClass) : List PropertyClass → Option PropertyClass
  | [] => none
  | c :: rest => if c ∈ seen then some c else firstRepeated? (c :: seen) rest

namespace Config

/-- The first fault of a configuration: the phase, the program, the suffix and the
priority are looked at in this order. -/
def fault? (c : Config) : Option ConfigFault :=
  if c.invariants.phase = 0 then some .phaseZero
  else if (Text.trim c.invariants.program.toList).isEmpty then some .blankProgram
  else if c.invariants.outputSuffix = "" then some .emptySuffix
  else (firstRepeated? [] c.augmentation.priority).map .repeatedClass

/-- Accept a configuration without fault. -/
def validate (c : Config) : Except CampaignError Unit :=
  match c.fault? with
  | some fault => .error (.config fault.message)
  | none => .ok ()

/-- The default configuration is usable. -/
theorem fault?_default : ({} : Config).fault? = none := by decide +kernel

/-- A configuration is accepted exactly when it has no fault. -/
theorem validate_eq_ok_iff (c : Config) : c.validate = .ok () ↔ c.fault? = none := by
  unfold validate
  split <;> simp_all

/-- The default configuration is accepted. -/
theorem validate_default : ({} : Config).validate = .ok () :=
  (validate_eq_ok_iff _).2 fault?_default

end Config

end PhasedInduction

/-!
# Errors and their texts

The causes for which an operation is refused, each with the text that is shown for
it.  {lit}`DomainError` holds what can be wrong with a value of the domain,
{lit}`CampaignError` what can go wrong in a campaign.
-/

namespace PhasedInduction

/-- What can be wrong with a value of the domain. -/
inductive DomainError where
  | unknownPropertyKind (name : String)
  | invalidPassArgument (argument : String)
  | invalidPhase (reason : String)
  | validation (reason : String)
deriving DecidableEq, Repr

/-- The text shown for a domain error. -/
def DomainError.message : DomainError → String
  | unknownPropertyKind name => "Unknown property kind: " ++ name
  | invalidPassArgument argument => "Invalid pass argument: " ++ argument
  | invalidPhase reason => "Invalid phase: " ++ reason
  | validation reason => "Validation error: " ++ reason

/-- The phase number zero is refused. -/
def DomainError.phaseZero : DomainError := invalidPhase "phases start at 1"

/-- A property without any kind is refused. -/
def DomainError.emptyProperty : DomainError := validation "empty property"

/-- What can go wrong in a campaign. -/
inductive CampaignError where
  | contractViolation (operation : String)
  | invariantGenerationFailed (property : String) (phase : UInt32) (command reason : String)
  | linkFailed (reason : String)
  | config (reason : String)
  | core (error : DomainError)
  | io (reason : String)
  | serialization (reason : String)
deriving DecidableEq, Repr

/-- The text shown for a campaign error. -/
def CampaignError.message : CampaignError → String
  | contractViolation operation =>
    "Contract violation: " ++ operation ++ " must never be called on this tool"
  | invariantGenerationFailed property phase command reason =>
    "Invariant generation failed for property " ++ property ++ " at phase "
      ++ toString phase.toNat ++ ": `" ++ command ++ "`: " ++ reason
  | linkFailed reason => "Linking failed: " ++ reason
  | config reason => "Invalid configuration: " ++ reason
  | core error => "Domain error: " ++ error.message
  | io reason => "IO error: " ++ reason
  | serialization reason => "Serialization error: " ++ reason

end PhasedInduction

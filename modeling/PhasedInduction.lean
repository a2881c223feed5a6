import PhasedInduction.Campaign
import PhasedInduction.Json.Reader
import PhasedInduction.Main
import PhasedInduction.Pass.OptArgs
import PhasedInduction.Proofs.ArgumentGrammar
import PhasedInduction.Proofs.ClassPriorities
import PhasedInduction.Proofs.Course
import PhasedInduction.Proofs.DefaultFile
import PhasedInduction.Proofs.DescribedRuns
import PhasedInduction.Proofs.EventLog
import PhasedInduction.Proofs.GeneratorFailures
import PhasedInduction.Proofs.GeneratorOutputs
import PhasedInduction.Proofs.HostRounds
import PhasedInduction.Proofs.ParameterLookups
import PhasedInduction.Proofs.PartialConfigs
import PhasedInduction.Proofs.PlannedRuns
import PhasedInduction.Proofs.PreviewModes
import PhasedInduction.Proofs.PropertyTexts
import PhasedInduction.Proofs.Rounds
import PhasedInduction.Proofs.SessionRouting
import PhasedInduction.Proofs.Subscriptions
import PhasedInduction.Proofs.ToolPasses
import PhasedInduction.Proofs.UnnoticedCalls
import PhasedInduction.Proofs.UsableConfig
import PhasedInduction.Proofs.WrittenData
import PhasedInduction.Tool.Calls

import Whetstone.Tools.AdmissionLedger
import Whetstone.Tools.IssuedLedger
import Whetstone.Coordination.ClaimSafety
import Whetstone.Eval.RngSeeds
import Whetstone.Drivers.RowAgreement
import Whetstone.Platform.HeadWatermark
import Whetstone.Tools.BackendAgreement
import Whetstone.Eval.SamplingClosure
import Whetstone.Platform.FaninReplay
import Whetstone.Tools.ExecutionSafety
import Whetstone.Tools.RecoveredExecution
import Whetstone.Lib.AskTell
import Whetstone.Optim.Copro.Progress
import Whetstone.Optim.StudyTranscript
import Whetstone.Optim.StudyClosure
import Whetstone.Optim.PromotionSchedule
import Whetstone.Optim.RowSpend
import Whetstone.Drivers.PartialLedger
import Whetstone.Drivers.RowRecords
import Whetstone.Optim.StepTerminal
import Whetstone.Optim.Gepa.SteppedRun
import Whetstone.Optim.Gepa.SpendRun
import Whetstone.Core.LeaseRestoration
import Whetstone.Eval.AggregateViews
import Whetstone.Platform.FanoutArithmetic
import Whetstone.Coordination.RunIsolation
import Whetstone.Optim.Codex.Reconciliation
import Whetstone.Optim.Codex.Transcript
import Whetstone.Optim.Miprov2.Render
import Whetstone.Optim.Gepa.PromptFormat
import Whetstone.Optim.Gepa.BatchCollapse
import Whetstone.Experiment.Objectives
import Whetstone.Eval.HolmAdjust
import Whetstone.Eval.Provenance
import Whetstone.Eval.TraceSize
import Whetstone.Eval.Bootstrap
import Whetstone.Optim.Miprov2.ControlIdentity
import Whetstone.Optim.Miprov2.Configure
import Whetstone.Optim.AnsweredCalls
import Whetstone.Execution.PartialAtomicity
import Whetstone.Optim.Miprov2.BootstrapDemoSet
import Whetstone.Optim.Miprov2.StateMemo
import Whetstone.Execution.PromptCacheRuns

import Testplan.Action
import Testplan.Attempt
import Testplan.CommandLine
import Testplan.Compile
import Testplan.Configuration
import Testplan.Diagnosis
import Testplan.Discovery
import Testplan.DiscoveryDocument
import Testplan.Document
import Testplan.Environment
import Testplan.Failure
import Testplan.Field
import Testplan.FileTree
import Testplan.Framework
import Testplan.Healing
import Testplan.Job
import Testplan.JobDocument
import Testplan.JobQueue
import Testplan.KeyTable
import Testplan.LinePattern
import Testplan.Loading
import Testplan.Locator
import Testplan.Main
import Testplan.Orchestrator
import Testplan.PageGroup
import Testplan.Path
import Testplan.Pattern
import Testplan.Placeholder
import Testplan.Plan
import Testplan.PlanDocument
import Testplan.ProcessOutput
import Testplan.ProjectWriting
import Testplan.Proofs.AddressQueries
import Testplan.Proofs.Announcements
import Testplan.Proofs.AppiumEvidence
import Testplan.Proofs.AttemptEnd
import Testplan.Proofs.AttemptLog
import Testplan.Proofs.AttemptOutcome
import Testplan.Proofs.BaseUrls
import Testplan.Proofs.BoardCustody
import Testplan.Proofs.BoardOrder
import Testplan.Proofs.CalendarDates
import Testplan.Proofs.CodeUnits
import Testplan.Proofs.CompiledPlans
import Testplan.Proofs.CorrectedLines
import Testplan.Proofs.Custody
import Testplan.Proofs.DecodedLines
import Testplan.Proofs.DivergingTexts
import Testplan.Proofs.DocumentReading
import Testplan.Proofs.EffectiveHealing
import Testplan.Proofs.EvidenceArguments
import Testplan.Proofs.ExactHealing
import Testplan.Proofs.ExcludedScenarios
import Testplan.Proofs.FailureSigns
import Testplan.Proofs.GeneratedCode
import Testplan.Proofs.HealedActions
import Testplan.Proofs.HealedPages
import Testplan.Proofs.HealingOnPage
import Testplan.Proofs.HintGrammar
import Testplan.Proofs.HintQueries
import Testplan.Proofs.HintRoundTrip
import Testplan.Proofs.IdentifierText
import Testplan.Proofs.IdlePolling
import Testplan.Proofs.Interleaving
import Testplan.Proofs.JobCalls
import Testplan.Proofs.JobLife
import Testplan.Proofs.JobStory
import Testplan.Proofs.LineMatching
import Testplan.Proofs.LineShapes
import Testplan.Proofs.Lineages
import Testplan.Proofs.LinkArrivals
import Testplan.Proofs.LocatorChain
import Testplan.Proofs.LocatorReading
import Testplan.Proofs.LogTails
import Testplan.Proofs.Lookups
import Testplan.Proofs.ManagedShift
import Testplan.Proofs.MissingEntries
import Testplan.Proofs.OutputChannel
import Testplan.Proofs.PageFiles
import Testplan.Proofs.PageGroups
import Testplan.Proofs.PageStems
import Testplan.Proofs.PathNames
import Testplan.Proofs.PlaceholderExpansion
import Testplan.Proofs.PlaceholderText
import Testplan.Proofs.Placement
import Testplan.Proofs.PlanCustody
import Testplan.Proofs.PlanFiles
import Testplan.Proofs.ProjectOnDisk
import Testplan.Proofs.ProjectPaths
import Testplan.Proofs.QueueContents
import Testplan.Proofs.QueueLedger
import Testplan.Proofs.QueueStandstill
import Testplan.Proofs.QuotedTexts
import Testplan.Proofs.Records
import Testplan.Proofs.RenderedPages
import Testplan.Proofs.RepeatedHealing
import Testplan.Proofs.ResolvedEnvironments
import Testplan.Proofs.RevisedVersions
import Testplan.Proofs.RunUntilIdle
import Testplan.Proofs.ScenarioIds
import Testplan.Proofs.Schedule
import Testplan.Proofs.SecuritySplit
import Testplan.Proofs.Service
import Testplan.Proofs.Shift
import Testplan.Proofs.SingleLines
import Testplan.Proofs.Standstill
import Testplan.Proofs.StemNumbering
import Testplan.Proofs.StepArguments
import Testplan.Proofs.Submissions
import Testplan.Proofs.TestTitles
import Testplan.Proofs.TimestampText
import Testplan.Proofs.TreeWriting
import Testplan.Proofs.Uninterrupted
import Testplan.Proofs.WakeUps
import Testplan.Proofs.WrittenProjects
import Testplan.Rehearsal
import Testplan.RenderAppium
import Testplan.RenderCucumber
import Testplan.RenderCypress
import Testplan.RenderPlaywright
import Testplan.Rendering
import Testplan.RenderingDocument
import Testplan.Roster
import Testplan.Runner
import Testplan.Scenario
import Testplan.Script.Builtins
import Testplan.Script.Characters
import Testplan.Script.Expansion
import Testplan.Script.Programs
import Testplan.Script.Reader
import Testplan.Script.Run
import Testplan.Script.Shell
import Testplan.Script.Syntax
import Testplan.Script.Text
import Testplan.SinglePrecision
import Testplan.TextBlank
import Testplan.TextCut
import Testplan.TextJson
import Testplan.TextPrintable
import Testplan.TextWord
import Testplan.Timestamp
import Testplan.Uuid
import Testplan.Waiting
import Testplan.WorkerPool
import Testplan.YamlPrinter
import Testplan.YamlReader

import StagedFormat.Listing.Tree
import StagedFormat.Main
import StagedFormat.Outcome.Report
import StagedFormat.Path.Normal
import StagedFormat.Proofs.SourceSpacing
import StagedFormat.Source.Layout
import StagedFormat.Proofs.SourceFixedPoints
import StagedFormat.Proofs.PathSegments
import StagedFormat.Proofs.DiskFollowing
import StagedFormat.Proofs.DiskReplacement
import StagedFormat.Proofs.RepositoryEffects
import StagedFormat.Proofs.StagingOrder
import StagedFormat.Proofs.PreCommitScope
import StagedFormat.Proofs.PreCommitTargets
import StagedFormat.Proofs.PreCommitContract
import StagedFormat.Proofs.DryRuns
import StagedFormat.Proofs.CommandTransmission
import StagedFormat.Proofs.DaemonAnswers
import StagedFormat.Proofs.HookInvocations
import StagedFormat.Proofs.StandardInput
import StagedFormat.Proofs.DryRunHooks
import StagedFormat.Proofs.CalmRuns
import StagedFormat.Proofs.PathPlaces
import StagedFormat.Proofs.DaemonRoute
import StagedFormat.Proofs.HookFallback
import StagedFormat.Proofs.HookStatus
import StagedFormat.Proofs.FreshRuns
import StagedFormat.Proofs.DaemonTurns
import StagedFormat.Proofs.DaemonCourse
import StagedFormat.Proofs.DaemonService
import StagedFormat.Proofs.PathOrder
import StagedFormat.Proofs.FileWalk
import StagedFormat.Proofs.WorkingDirectoryScope
import StagedFormat.Proofs.ScopeOverlap
import StagedFormat.Proofs.DiskGrowth
import StagedFormat.Proofs.LockExclusion
import StagedFormat.Proofs.NumberTexts
import StagedFormat.Proofs.RecordTexts
import StagedFormat.Proofs.ReplyTexts
import StagedFormat.Proofs.TextOrder
import StagedFormat.Proofs.ReportOrder
import StagedFormat.Proofs.DaemonExclusion
import StagedFormat.Proofs.PathSight
import StagedFormat.Proofs.WorkerSteps
import StagedFormat.Proofs.WorkspaceCells
import StagedFormat.Proofs.WorkerFootprints
import StagedFormat.Proofs.DispatchSchedules
import StagedFormat.Proofs.DispatchDecomposition
import StagedFormat.Proofs.StartupLeftovers
import StagedFormat.Proofs.SettledRuns
import StagedFormat.Proofs.SourceNormalForm
import StagedFormat.Proofs.SourceAssignments
import StagedFormat.Proofs.DaemonSupervision
import StagedFormat.Proofs.DaemonDeparture
import StagedFormat.Proofs.LockSite
import StagedFormat.Proofs.VersionHandOff
import StagedFormat.Proofs.HandOffRefusal
import StagedFormat.Proofs.SourceFaults
import StagedFormat.Proofs.SourceBlanks
import StagedFormat.Proofs.SourceLines
import StagedFormat.Proofs.StatusListing
import StagedFormat.Proofs.PathBearing
import StagedFormat.Proofs.FilterPlaces
import StagedFormat.Proofs.PrePushScope
import StagedFormat.Proofs.FileRestoration
import StagedFormat.Proofs.StreamCalls
import StagedFormat.Proofs.LockRelease
import StagedFormat.Proofs.LockRecords
import StagedFormat.Proofs.SettingsNodes
import StagedFormat.Proofs.SettingsLayers

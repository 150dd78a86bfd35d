import CaptureAudit.Archive.Specimen
import CaptureAudit.Main
import CaptureAudit.Runner.Pool
import CaptureAudit.Proofs.Ascending
import CaptureAudit.Proofs.PostingList
import CaptureAudit.Proofs.ScriptSteps
import CaptureAudit.Proofs.Tally
import CaptureAudit.Proofs.PoolAccount
import CaptureAudit.Proofs.PoolOrder
import CaptureAudit.Proofs.ExitStatus
import CaptureAudit.Proofs.PoolReport
import CaptureAudit.Proofs.CatalogShape
import CaptureAudit.Proofs.Registration
import CaptureAudit.Proofs.Batch
import CaptureAudit.Proofs.Override
import CaptureAudit.Proofs.CatalogCalls
import CaptureAudit.Proofs.BatchOrder
import CaptureAudit.Proofs.DigitText
import CaptureAudit.Proofs.NumberToken
import CaptureAudit.Proofs.WrittenNumber
import CaptureAudit.Proofs.TextToken
import CaptureAudit.Proofs.WrittenDocument
import CaptureAudit.Proofs.EncodedText
import CaptureAudit.Proofs.ExceptSteps
import CaptureAudit.Proofs.RecordReading
import CaptureAudit.Proofs.ReportText
import CaptureAudit.Proofs.TimestampText
import CaptureAudit.Proofs.PathSegments
import CaptureAudit.Proofs.SessionRuns
import CaptureAudit.Proofs.DiskWrites
import CaptureAudit.Proofs.ManifestText
import CaptureAudit.Proofs.DirectoryRoundTrip
import CaptureAudit.Proofs.Captures
import CaptureAudit.Proofs.Walk
import CaptureAudit.Proofs.ScriptEffect
import CaptureAudit.Proofs.SnapshotChecks
import CaptureAudit.Proofs.SnapshotReport
import CaptureAudit.Proofs.PoolMoves
import CaptureAudit.Proofs.PoolCourse
import CaptureAudit.Proofs.PoolCancellation
import CaptureAudit.Proofs.CancelledReport
import CaptureAudit.Proofs.ReportAcceptance
import CaptureAudit.Proofs.DirectoryLoading
import CaptureAudit.Proofs.PathComponents
import CaptureAudit.Proofs.OpenedFiles
import CaptureAudit.Proofs.ScriptTelling
import CaptureAudit.Proofs.VisitFindings
import CaptureAudit.Proofs.MetaGroupFindings
import CaptureAudit.Proofs.UsageFindings
import CaptureAudit.Proofs.UnreadableSnapshot
import CaptureAudit.Proofs.LeaderGroups
import CaptureAudit.Proofs.SnapshotText
import CaptureAudit.Proofs.BuiltInChecks
import CaptureAudit.Proofs.SavedReport
import CaptureAudit.Proofs.AnalysisStages
import CaptureAudit.Proofs.Findings
import CaptureAudit.Proofs.OfflineReplicas
import CaptureAudit.Proofs.RoundedWords
import CaptureAudit.Proofs.UsageEvidence
import CaptureAudit.Proofs.UsageLimits
import CaptureAudit.Proofs.ExampleLimit
import CaptureAudit.Proofs.StoredValues
import CaptureAudit.Proofs.ConfigurationLayers
import CaptureAudit.Proofs.NamedOverride
import CaptureAudit.Proofs.ScriptPolls
import CaptureAudit.Proofs.CheckPolls
import CaptureAudit.Proofs.CancelledChecks
import CaptureAudit.Proofs.NodeGrammar
import CaptureAudit.Proofs.ArchiveQueries
import CaptureAudit.Proofs.NumberExtent
import CaptureAudit.Proofs.TokenExtent
import CaptureAudit.Proofs.TokenSplit
import CaptureAudit.Proofs.RecordMembers
import CaptureAudit.Proofs.DocumentEdits
import CaptureAudit.Proofs.SnapshotParts
import CaptureAudit.Proofs.SnapshotSites
import CaptureAudit.Proofs.SnapshotMembers
import CaptureAudit.Proofs.NearestQuotients
import CaptureAudit.Proofs.Weights
import CaptureAudit.Proofs.FiniteNumbers
import CaptureAudit.Proofs.NearestDecimals
import CaptureAudit.Proofs.DecimalLiterals
import CaptureAudit.Proofs.Percentages
import CaptureAudit.Proofs.AsciiCase
import CaptureAudit.Proofs.CodeLookup
import CaptureAudit.Proofs.RenderedLines
import CaptureAudit.Proofs.ReloadedReport
import CaptureAudit.Proofs.EvidenceAccount
import CaptureAudit.Proofs.VerdictLines
import CaptureAudit.Proofs.OneLineTexts
import CaptureAudit.Proofs.OneLineFaults
import CaptureAudit.Proofs.ScriptTexts
import CaptureAudit.Proofs.ArchiveNames
import CaptureAudit.Proofs.ReportVerdicts

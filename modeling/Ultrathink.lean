import Ultrathink.Guarantees.FairShare
import Ultrathink.Guarantees.ConfigLayers
import Ultrathink.Guarantees.MergeSafety
import Ultrathink.Guarantees.LoginThrottle
import Ultrathink.Guarantees.RefreshRotation
import Ultrathink.Guarantees.AtMostOncePhases
import Ultrathink.Guarantees.AuditWatch
import Ultrathink.Guarantees.SinkQueue
import Ultrathink.Guarantees.FileLock
import Ultrathink.Guarantees.LastLock
import Ultrathink.Guarantees.StoreLock
import Ultrathink.Guarantees.LedgerParity
import Ultrathink.Guarantees.RelayAnswers
import Ultrathink.Guarantees.JournalStack
import Ultrathink.Guarantees.ClarifyBudget
import Ultrathink.Guarantees.PruneProgress
import Ultrathink.Guarantees.PlanDelivery
import Ultrathink.Guarantees.AutoRunLane
import Ultrathink.Guarantees.ThinkOrder
import Ultrathink.Guarantees.PrNudges
import Ultrathink.Guarantees.TrailingRefresh
import Ultrathink.Guarantees.RtkSavings
import Ultrathink.Guarantees.SkillScaffold
import Ultrathink.Guarantees.RepeatedResults
import Ultrathink.Guarantees.MessagesOnce
import Ultrathink.Guarantees.ShipAssessment
import Ultrathink.Guarantees.ReplanAnswers
import Ultrathink.Guarantees.BreakerDiscipline
import Ultrathink.Guarantees.PenaltyIndependence
import Ultrathink.Guarantees.WindowLimits
import Ultrathink.Guarantees.LedgerCeilings
import Ultrathink.Guarantees.ApprovalDeadline
import Ultrathink.Guarantees.PersistFailure
import Ultrathink.Guarantees.RowConservation
import Ultrathink.Guarantees.LimiterKeys
import Ultrathink.Guarantees.SnapshotPlan
import Ultrathink.Guarantees.SnapshotStamps
import Ultrathink.Guarantees.RationaleSplit
import Ultrathink.Guarantees.AnswersLand
import Ultrathink.Guarantees.TrackReruns
import Ultrathink.Guarantees.RoundAccounting
import Ultrathink.Guarantees.OutputEncodings
import Ultrathink.Guarantees.TrackingXml
import Ultrathink.Guarantees.CacheProbes
import Ultrathink.Guarantees.ThreadScan
import Ultrathink.Guarantees.StdioFraming
import Ultrathink.Guarantees.GraphAnswers
import Ultrathink.Guarantees.McpDiscipline
import Ultrathink.Guarantees.StdioServer
import Ultrathink.Guarantees.LedgerThrows
import Ultrathink.Guarantees.RefreshTokens
import Ultrathink.Guarantees.TamperEvidence
import Ultrathink.Guarantees.AnomalyCounts
import Ultrathink.Guarantees.RecallScope
import Ultrathink.Guarantees.LessonDocuments
import Ultrathink.Guarantees.UpstreamCalls
import Ultrathink.Guarantees.SyslogFrames
import Ultrathink.Guarantees.GraphViewRepair
import Ultrathink.Guarantees.AuditReads
import Ultrathink.Guarantees.StatusForward
import Ultrathink.Guarantees.SkillInstall

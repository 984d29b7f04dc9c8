import Supervisor.AcknowledgedDelivery
import Supervisor.AddProcess
import Supervisor.AlertCooldown
import Supervisor.AlertDeletion
import Supervisor.AlertNotifications
import Supervisor.BackupCut
import Supervisor.CliQueries
import Supervisor.CycleCheck
import Supervisor.DefinitionRoundTrip
import Supervisor.DeletionIdentity
import Supervisor.DeliveryLeases
import Supervisor.DispatchPass
import Supervisor.FollowExactlyOnce
import Supervisor.GuardActions
import Supervisor.GuardThresholds
import Supervisor.HandleCleanup
import Supervisor.InstanceRestore
import Supervisor.JournalSeparation
import Supervisor.Linearization
import Supervisor.LogCleanup
import Supervisor.LogsView
import Supervisor.MetricDownsampling
import Supervisor.OccurrenceClaims
import Supervisor.OperationReplay
import Supervisor.OutputCapture
import Supervisor.PageWalks
import Supervisor.RollbackAtomicity
import Supervisor.RunOnceRecovery
import Supervisor.RunPruning
import Supervisor.RunQueue
import Supervisor.RunningSlots
import Supervisor.ScheduleArithmetic
import Supervisor.ScheduleIdentity
import Supervisor.ScheduleRecovery
import Supervisor.SegmentRetention
import Supervisor.SessionValidity
import Supervisor.ShutdownDrain
import Supervisor.SnapshotGaps
import Supervisor.StartedInstances
import Supervisor.StopRestore
import Supervisor.StreamRevocation
import Supervisor.SubscribeBoundary
import Supervisor.TailCompleteness
import Supervisor.TerminalStability
import Supervisor.TokenRotation
import Supervisor.TransientRun
import Supervisor.UpstreamReadings
import Supervisor.WatchReads

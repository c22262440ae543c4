import Cta.Repack.Status
import Cta.Repack.ReportReplay
import Cta.Repack.SubrequestCreation
import Cta.Repack.ExpansionTotals
import Cta.Repack.SubrequestDeletion
import Cta.ObjectStore.RetrieveQueueBookkeeping
import Cta.ObjectStore.RetrieveQueueAddition
import Cta.ObjectStore.RetrieveQueueSplitting
import Cta.ObjectStore.RetrieveQueueExecution
import Cta.ObjectStore.RetrieveQueueBooks
import Cta.ObjectStore.RetrieveQueuePlan
import Cta.ObjectStore.ValueCountMap
import Cta.ObjectStore.ArchiveQueueBookkeeping
import Cta.ObjectStore.PopNextBatchRounds
import Cta.ObjectStore.GarbageCollection
import Cta.ObjectStore.ReferenceAndSwitchOwnership
import Cta.ObjectStore.ArchiveRequestReport
import Cta.ObjectStore.LockDiscipline
import Cta.ObjectStore.DeadAgents
import Cta.ObjectStore.CollectedWhileRunning
import Cta.ObjectStore.AsyncUpdater
import Cta.ObjectStore.RadosLocks
import Cta.ObjectStore.VfsLocks
import Cta.ObjectStore.Locking
import Cta.Tape.DriveGeneric
import Cta.Tape.ReportFlush
import Cta.Tape.RecoverableError
import Cta.Tape.MigrationTaskInjector
import Cta.TapeFile.ReaderSafety
import Cta.Tape.RecallTaskInjector
import Cta.Scheduler.NextMount
import Cta.Tape.RecallEndOfSession
import Cta.Catalogue.RetryOnLostConnection
import Cta.Catalogue.TapeCopies
import Cta.Daemon.CleanerAfterCrash
import Cta.Daemon.NoSubprocessLeft
import Cta.Rdbms.ConnPool
import Cta.Rdbms.CopyData
import Cta.Rdbms.SqlParams
import Cta.Rdbms.ConnectionStrings
import Cta.Scheduler.ReportQueueing
import Cta.Scheduler.ReportPolling
import Cta.Daemon.DriveRegistration
import Cta.Catalogue.DiskSpaceReservations
import Cta.Catalogue.ArchiveFileItor
import Cta.Scheduler.SchedulingInformations
import Cta.Scheduler.FailedRetrieveJob
import Cta.MediaChanger.RmcMessages
import Cta.MediaChanger.RmcServ
import Cta.ObjectStore.ArchiveRetries
import Cta.Scheduler.RetrieveRetries
import Cta.ObjectStore.ReportRetries
import Cta.Scheduler.DiskSpaceCheck
import Cta.Scheduler.BestMountPolicy
import Cta.ObjectStore.QueueCandidates
import Cta.ObjectStore.PlacementPlan
import Cta.ObjectStore.ActivityCounts
import Cta.ObjectStore.RetrieveQueueTimes
import Cta.ObjectStore.PopAccounting
import Cta.ObjectStore.RootEntryPointers
import Cta.Scheduler.BestRetrieveQueue
import Cta.Tape.SltfRao
import Cta.Scheduler.RetrieveMountInfo
import Cta.ObjectStore.Sorter
import Cta.ObjectStore.JobsAddedOnce
import Cta.Lib.BusyMarks
import Cta.Scheduler.StatisticsCache
import Cta.ObjectStore.IndividualCollection
import Cta.ObjectStore.ForeignObjects
import Cta.Lib.MoveToFront
import Cta.Lib.Slots
import Cta.Disk.DiskSystemList
import Cta.Disk.FreeSpace
import Cta.Common.CrcDetection
import Cta.Common.ChecksumBlob
import Cta.Common.SingleSpace
import Cta.MediaChanger.SmcDismount
import Cta.MediaChanger.CartridgePattern
import Cta.MediaChanger.LibrarySlots
import Cta.MediaChanger.ElementStatus
import Cta.MediaChanger.SmcImportResult
import Cta.ObjectStore.CountMaps
import Cta.ObjectStore.SortedInsertion
import Cta.Tape.FilePositions
import Cta.Tape.EnterpriseRao
import Cta.Tape.RaoManager
import Cta.Tape.LogSense
import Cta.ObjectStore.AgentReference
import Cta.ObjectStore.AgentReferenceQueues
import Cta.Scheduler.MemQueues
import Cta.Scheduler.MemQueueSteps
import Cta.Scheduler.MemQueueBatches
import Cta.Tape.RecalledFile
import Cta.Catalogue.TapeDrives
import Cta.Scheduler.DriveScheduling
import Cta.Repack.Promotion
import Cta.ObjectStore.AgentWatchdog

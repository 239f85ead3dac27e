import A2AKit.Task
import A2AKit.Artifacts
import A2AKit.ArtifactRetry
import A2AKit.Runs
import A2AKit.Storage
import A2AKit.VersionedStore
import A2AKit.StorageRuns
import A2AKit.TaskLifecycle
import A2AKit.Linearizability
import A2AKit.BatchRetry
import A2AKit.EventBus
import A2AKit.EventDelivery
import A2AKit.FinalEvent
import A2AKit.Interleave
import A2AKit.World
import A2AKit.Emitter
import A2AKit.AtomicUpdate
import A2AKit.Ladders
import A2AKit.LadderTermination
import A2AKit.LadderArtifacts
import A2AKit.TaskContext
import A2AKit.TurnWrites
import A2AKit.TurnArtifacts
import A2AKit.FlushSchedule
import A2AKit.Adapter
import A2AKit.CancelledTurn
import A2AKit.Rules
import A2AKit.Discipline
import A2AKit.Announcements
import A2AKit.StatusWrites
import A2AKit.EventOrder
import A2AKit.FrozenStatus
import A2AKit.RedisEventBus
import A2AKit.RedisDelivery
import A2AKit.ConsumerGroup
import A2AKit.RedisBroker
import A2AKit.BrokerMoves
import A2AKit.BrokerShutdown
import A2AKit.RetryBound
import A2AKit.OperationCopies
import A2AKit.Backlog
import A2AKit.Pool
import A2AKit.Hosted
import A2AKit.Requests
import A2AKit.SubmitRule
import A2AKit.Knowledge
import A2AKit.Footprint
import A2AKit.AckFailure
import A2AKit.Creation
import A2AKit.CreationInvariant
import A2AKit.CreationRequests
import A2AKit.IdempotentCreation
import A2AKit.EnqueueFailure
import A2AKit.FollowUps
import A2AKit.PauseRace
import A2AKit.Resubmission
import A2AKit.StateMachine
import A2AKit.Retry
import A2AKit.Dispatch
import A2AKit.MemoryBroker
import A2AKit.CancelIsolation
import A2AKit.MiddlewarePairing
import A2AKit.Authentication
import A2AKit.RedisIndex
import A2AKit.RedisIdempotency
import A2AKit.StreamDecoding
import A2AKit.CooperativeCancel
import A2AKit.Pagination
import A2AKit.TaskLists
import A2AKit.RedisTaskLists
import A2AKit.DropOldest
import A2AKit.WebhookQueue
import A2AKit.PushConfigs
import A2AKit.PushEmitter
import A2AKit.WebhookOrder
import A2AKit.PushConfigUpdates
import A2AKit.Netloc
import A2AKit.WebhookPinning
import A2AKit.PushEndpoints
import A2AKit.InlinePush
import A2AKit.Attempts
import A2AKit.ClientNetwork
import A2AKit.ClientRequests
import A2AKit.ErrorReports
import A2AKit.Dictionary
import A2AKit.WholeCalls
import A2AKit.BackendRefinement
import A2AKit.BackendAgreement
import A2AKit.ColumnWidths
import A2AKit.PublishedEvents
import A2AKit.Occurrences
import A2AKit.Dependencies
import A2AKit.TaskGauge
import A2AKit.HistoryTrimming
import A2AKit.PageTokens
import A2AKit.IsoFormat
import A2AKit.TimestampOrder
import A2AKit.TimestampFilter
import A2AKit.Reconnection
import A2AKit.ArtifactIndex
import A2AKit.CardSignatures
import A2AKit.TransportCandidates
import A2AKit.TaskQueries
import A2AKit.ClientMistakes
import A2AKit.JsonPaths
import A2AKit.PublicMetadata
import A2AKit.OperationAccounts
import A2AKit.RedisTexts
import A2AKit.OperationIntegrity
import A2AKit.Scopes
import A2AKit.Lifespan
import A2AKit.Semaphore
import A2AKit.WebhookService
import A2AKit.PercentEncoding
import A2AKit.RestRouting
import A2AKit.ServedTransports
import A2AKit.Reconstruction
import A2AKit.Interfaces
import A2AKit.EmitterStack
import A2AKit.DirectReplies
import A2AKit.PushCascade

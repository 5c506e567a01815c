import ModelConnector.Foundations.Run
import ModelConnector.Foundations.Atomic
import ModelConnector.Foundations.Table
import ModelConnector.Foundations.Rounding
import ModelConnector.Billing.Store
import ModelConnector.Billing.Statements
import ModelConnector.Billing.Service
import ModelConnector.Billing.Reversal
import ModelConnector.Billing.Intent
import ModelConnector.Billing.IntentSpec
import ModelConnector.Billing.CostSource
import ModelConnector.Billing.Reconciler
import ModelConnector.Connectors.Settlement
import ModelConnector.System
import ModelConnector.Phases
import ModelConnector.Handles
import ModelConnector.HoldConservation
import ModelConnector.LedgerAgreement
import ModelConnector.Backing
import ModelConnector.PaidWork
import ModelConnector.Calls
import ModelConnector.Reconciliation
import ModelConnector.Fencing
import ModelConnector.ReplayRetention
import ModelConnector.Foundations.History
import ModelConnector.Foundations.Json
import ModelConnector.Foundations.Versions
import ModelConnector.Billing.ReverseStatements
import ModelConnector.Billing.MeasuredCost
import ModelConnector.Connectors.Response
import ModelConnector.Connectors.Metering
import ModelConnector.OverReversal
import ModelConnector.MeteringAdditivity
import ModelConnector.Connectors.OutputGuard
import ModelConnector.GuardedUsage
import ModelConnector.Foundations.Number
import ModelConnector.Billing.PriceCoverage
import ModelConnector.Connectors.Catalog
import ModelConnector.PriceAgreement
import ModelConnector.Resilience.CircuitBreaker
import ModelConnector.HalfOpen
import ModelConnector.Connectors.ApiAttempt
import ModelConnector.CallerBudget
import ModelConnector.Connectors.Failover
import ModelConnector.FailoverChain
import ModelConnector.Connectors.Cascade
import ModelConnector.CascadeBudget
import ModelConnector.Connectors.StrictChat
import ModelConnector.StrictDispatch
import ModelConnector.Foundations.Window
import ModelConnector.Auth.KeyRateLimit
import ModelConnector.RateWindows
import ModelConnector.Foundations.Keyed
import ModelConnector.Connectors.CatalogSnapshot
import ModelConnector.Connectors.CatalogRepository
import ModelConnector.SnapshotApplied
import ModelConnector.Foundations.Locked
import ModelConnector.Bench.Contract
import ModelConnector.Bench.Store
import ModelConnector.Bench.Chain
import ModelConnector.Bench.Service
import ModelConnector.Bench.Replies
import ModelConnector.BenchReservation
import ModelConnector.Bench.Monetary
import ModelConnector.MonetaryEnvelope
import ModelConnector.Policy.ApiKeyPolicy
import ModelConnector.Connectors.CatalogView
import ModelConnector.CatalogInterference
import ModelConnector.Connectors.ProviderGates
import ModelConnector.Images.Router
import ModelConnector.Images.Generation
import ModelConnector.Speech.SttRouter
import ModelConnector.Speech.SttAsync
import ModelConnector.ProviderGate
import ModelConnector.ImageRows
import ModelConnector.SttBudget
import ModelConnector.Foundations.Result
import ModelConnector.PromptCache.Layout
import ModelConnector.PromptCache.Policy
import ModelConnector.SessionConstancy
import ModelConnector.TenantIsolation
import ModelConnector.Auth.ApiKeys
import ModelConnector.Revocation
import ModelConnector.Foundations.Program
import ModelConnector.Deploy.Journal
import ModelConnector.Deploy.Transaction
import ModelConnector.Deploy.Custody
import ModelConnector.Deploy.Commands
import ModelConnector.PendingJournal
import ModelConnector.BaselineRestored
import ModelConnector.Foundations.Rolling
import ModelConnector.Metrics.Service
import ModelConnector.Watcher.Observation
import ModelConnector.Watcher.Recovery
import ModelConnector.ResetBudget
import ModelConnector.MetricDelta
import ModelConnector.Sdk.Clients
import ModelConnector.SdkAgreement
import ModelConnector.Billing.ReversalOutcome
import ModelConnector.ReversalHeadroom
import ModelConnector.ReversalReplay
import ModelConnector.Foundations.JsonOrder
import ModelConnector.Billing.Fingerprint
import ModelConnector.PayloadFingerprints
import ModelConnector.BreakerSummary
import ModelConnector.Connectors.Semaphore
import ModelConnector.SlotGrants
import ModelConnector.Connectors.CliExecute
import ModelConnector.SlotLeak
import ModelConnector.Foundations.Firsts
import ModelConnector.Connectors.FailoverCandidates
import ModelConnector.CandidateOrder
import ModelConnector.Connectors.StrictContract
import ModelConnector.ToolConversation
import ModelConnector.Foundations.TextDecoder
import ModelConnector.Foundations.Frames
import ModelConnector.Connectors.StrictStream
import ModelConnector.StreamChunks
import ModelConnector.Auth.LimitCache
import ModelConnector.LimitFreshness
import ModelConnector.Foundations.Delta
import ModelConnector.DriftReplay
import ModelConnector.TokenPartition
import ModelConnector.Billing.CostEstimate
import ModelConnector.EstimateCovers
import ModelConnector.Billing.MoneyCall
import ModelConnector.RoundedBooks
import ModelConnector.FalseReplays
import ModelConnector.CatalogRoundTrip
import ModelConnector.Foundations.EcmaText
import ModelConnector.Foundations.EcmaNumber
import ModelConnector.Foundations.EcmaJson
import ModelConnector.Foundations.Members
import ModelConnector.Foundations.EcmaOrder
import ModelConnector.Foundations.EcmaWriters
import ModelConnector.Bench.Canonical
import ModelConnector.CanonicalTexts
import ModelConnector.IncumbentEncoder
import ModelConnector.ImageFallback
import ModelConnector.Images.Connectors
import ModelConnector.ImageRecords
import ModelConnector.Foundations.Recorded
import ModelConnector.Foundations.EcmaString
import ModelConnector.Speech.SttConnectors
import ModelConnector.SpeechContainment
import ModelConnector.Speech.SttJobs
import ModelConnector.SttJobFinality
import ModelConnector.SttJobResults
import ModelConnector.Foundations.Follow
import ModelConnector.Connectors.ModelRefresh
import ModelConnector.RefreshEnds
import ModelConnector.Connectors.CredentialHealth
import ModelConnector.CredentialFlight
import ModelConnector.Foundations.Splits
import ModelConnector.Policy.KeyContext
import ModelConnector.SecretsRedacted
import ModelConnector.Connectors.AnthropicUsage
import ModelConnector.UsagePriced
import ModelConnector.Connectors.SseDecoders
import ModelConnector.SseChunks
import ModelConnector.Connectors.SchemaNormalizer
import ModelConnector.StrictSchemas
import ModelConnector.Connectors.DecisionContract
import ModelConnector.DecisionAnswers
import ModelConnector.Connectors.ProviderAccess
import ModelConnector.AccessOrder
import ModelConnector.Watcher.Cycles
import ModelConnector.HealedCircuits
import ModelConnector.Foundations.Hysteresis
import ModelConnector.Watcher.LatencyWindow
import ModelConnector.WindowHysteresis
import ModelConnector.Watcher.Alerts
import ModelConnector.AlertDedup
import ModelConnector.Watcher.CatalogSync
import ModelConnector.DeprecationMisses
import ModelConnector.RemovalGuard
import ModelConnector.Watcher.Heartbeat
import ModelConnector.CycleFailures
import ModelConnector.Foundations.Replacement
import ModelConnector.Sdk.Redaction
import ModelConnector.CauseRedacted
import ModelConnector.Foundations.EcmaBytes
import ModelConnector.Connectors.Ai21Contract
import ModelConnector.Ai21Grammar
import ModelConnector.Connectors.Capabilities
import ModelConnector.AdvertisedModels
import ModelConnector.Foundations.Regex
import ModelConnector.PromptCache.Contract
import ModelConnector.SecretScan
import ModelConnector.Foundations.Logs
import ModelConnector.PromptCache.Service
import ModelConnector.PolicyLog
import ModelConnector.SentPrefix
import ModelConnector.GuardedOutput
import ModelConnector.CatalogRefinement
import ModelConnector.AccountHistory
import ModelConnector.Connectors.OpenAiCompat
import ModelConnector.ChatGateway

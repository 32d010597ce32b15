import SaasTemplate.Tenancy.OwnerInvariant
import SaasTemplate.Tenancy.InviteExpiry
import SaasTemplate.Tenancy.InviteRuns
import SaasTemplate.Outbox.StateMachine
import SaasTemplate.Tenancy.DeletedOrganisations
import SaasTemplate.Platform.AdminRuns
import SaasTemplate.Isolation.RowVersions
import SaasTemplate.Privacy.ArtifactOperations
import SaasTemplate.Privacy.ArtifactRuns
import SaasTemplate.Isolation.Faults
import SaasTemplate.Outbox.AtMostOnce
import SaasTemplate.Outbox.PayloadSecrets
import SaasTemplate.Storage.Fencing
import SaasTemplate.Storage.LocalFiles
import SaasTemplate.Storage.LocalRuns
import SaasTemplate.Privacy.DeferredDeletions
import SaasTemplate.Privacy.ErasureAtomicity
import SaasTemplate.Isolation.Alone
import SaasTemplate.Privacy.ExecutionBatches
import SaasTemplate.Privacy.ExecutionOperations
import SaasTemplate.Privacy.ExecutionRuns
import SaasTemplate.RateLimit.GroupedRuns
import SaasTemplate.Audit.Retention
import SaasTemplate.Privacy.ConsentGate
import SaasTemplate.Audit.LegalHold
import SaasTemplate.RateLimit.EdgeAssertion
import SaasTemplate.Privacy.SubmissionRuns
import SaasTemplate.Privacy.StreamedExport
import SaasTemplate.Privacy.ExportSecrecy
import SaasTemplate.Privacy.ErasureFrame
import SaasTemplate.Privacy.Fingerprints
import SaasTemplate.Privacy.DownloadExpiry
import SaasTemplate.Privacy.RetentionProgress
import SaasTemplate.Privacy.ErasureRepeats
import SaasTemplate.Privacy.Deliveries
import SaasTemplate.Tenancy.Authority
import SaasTemplate.Tenancy.LimitedCalls
import SaasTemplate.Tenancy.QuotaPoisoning
import SaasTemplate.Privacy.RetentionSafety
import SaasTemplate.RateLimit.GroupedChecks
import SaasTemplate.RateLimit.FallbackRuns
import SaasTemplate.Privacy.KeysetPaging
import SaasTemplate.Auth.JwksRefresh
import SaasTemplate.Privacy.RetentionConvergence
import SaasTemplate.Privacy.ErasureImpact
import SaasTemplate.Tenancy.Provisioning
import SaasTemplate.Isolation.Watching
import SaasTemplate.Outbox.Observations
import SaasTemplate.Outbox.LiveTokens
import SaasTemplate.Text.IpAddress
import SaasTemplate.RateLimit.Identifiers
import SaasTemplate.RateLimit.PolicyRegistry
import SaasTemplate.Privacy.CurrentArtifact
import SaasTemplate.Privacy.ExecutionHealth
import SaasTemplate.Python.Value
import SaasTemplate.Audit.Metadata
import SaasTemplate.Text.Regex
import SaasTemplate.Logging.Processors
import SaasTemplate.Logging.Emails
import SaasTemplate.Logging.Masking
import SaasTemplate.Logging.Redaction
import SaasTemplate.Isolation.JointPhases
import SaasTemplate.Storage.KeyCalls
import SaasTemplate.Exports.Model
import SaasTemplate.Exports.Worker
import SaasTemplate.Exports.Knowledge
import SaasTemplate.Exports.Learning
import SaasTemplate.Exports.Integrity
import SaasTemplate.Exports.Steps
import SaasTemplate.Exports.StorageSteps
import SaasTemplate.Exports.Runs
import SaasTemplate.Exports.Recovery
import SaasTemplate.Exports.Participants
import SaasTemplate.Exports.Collection

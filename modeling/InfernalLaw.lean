import InfernalLaw.Postgres.Engine
import InfernalLaw.Postgres.Interference
import InfernalLaw.Postgres.Rules
import InfernalLaw.Kernel.Basic
import InfernalLaw.Postgres.Serial
import InfernalLaw.Postgres.Table
import InfernalLaw.Kernel.Authority
import InfernalLaw.Kernel.WorkClaims
import InfernalLaw.Kernel.Requests
import InfernalLaw.Kernel.Subscriptions
import InfernalLaw.Infrastructure.Database
import InfernalLaw.Infrastructure.Constraints
import InfernalLaw.Infrastructure.WorkClaimRepository
import InfernalLaw.Tenure.Orderly
import InfernalLaw.Infrastructure.Background
import InfernalLaw.Runs.WorkClaims
import InfernalLaw.Infrastructure.ReplayProtectionRepository
import InfernalLaw.Runs.ReplayProtection
import InfernalLaw.Infrastructure.RequestRepository
import InfernalLaw.Runs.Requests
import InfernalLaw.Infrastructure.SubscriptionRepository
import InfernalLaw.Infrastructure.RouteRepository
import InfernalLaw.Infrastructure.AuthorityFunctions
import InfernalLaw.Infrastructure.AuthorityRepository
import InfernalLaw.Postgres.Writes
import InfernalLaw.Runs.Authority
import InfernalLaw.Runs.MatchingGrants
import InfernalLaw.Framing.Lines
import InfernalLaw.Kernel.Crates
import InfernalLaw.Kernel.InstanceRegistry
import InfernalLaw.Kernel.ServiceRequests
import InfernalLaw.Kernel.SignatureBinding
import InfernalLaw.Http.EligibleRoutes
import InfernalLaw.Runs.Eligibility
import InfernalLaw.Framing.Fields
import InfernalLaw.Kernel.Enrollment
import InfernalLaw.Kernel.Handshakes
import InfernalLaw.Kernel.SignedMessages
import InfernalLaw.Postgres.Atomic
import InfernalLaw.Runs.Subscriptions
import InfernalLaw.Infrastructure.SchemaVersions
import InfernalLaw.Runs.Schemas
import InfernalLaw.Infrastructure.Grants
import InfernalLaw.Runs.AuthorityAudit
import InfernalLaw.Infrastructure.InstanceRegistryRepository
import InfernalLaw.Runs.InstanceRegistry
import InfernalLaw.Runs.LeaseRenewals
import InfernalLaw.Infrastructure.AdmissionRepository
import InfernalLaw.Runs.Admission
import InfernalLaw.Infrastructure.HandshakeRepository
import InfernalLaw.Runs.Handshakes
import InfernalLaw.Postgres.Receipts
import InfernalLaw.Infrastructure.EnrollmentRepository
import InfernalLaw.Runs.Enrollment
import InfernalLaw.Infrastructure.Registrar
import InfernalLaw.Runs.Registrar
import InfernalLaw.Runs.RegistrarPrune
import InfernalLaw.Runs.RegistrarRepeats
import InfernalLaw.Http.Arrival
import InfernalLaw.Http.Framing
import InfernalLaw.Http.Requests
import InfernalLaw.Runs.WorkClaimRenewals
import InfernalLaw.Kernel.SignatureInput
import InfernalLaw.Kernel.HonestRequests
import InfernalLaw.Http.RequestRoutes
import InfernalLaw.Runs.Retries
import InfernalLaw.Http.OwnedRecords
import InfernalLaw.Postgres.SideBySide
import InfernalLaw.Runs.OwnRows
import InfernalLaw.Runs.Ownership
import InfernalLaw.Postgres.Turns
import InfernalLaw.Runs.ClaimContention
import InfernalLaw.Runs.SchemaConflicts
import InfernalLaw.Http.ClaimActions
import InfernalLaw.Kernel.RequestGate
import InfernalLaw.Infrastructure.HttpPolicyEvaluator
import InfernalLaw.Runs.HandshakeReconciliation
import InfernalLaw.Runs.RevocationContention
import InfernalLaw.Runs.RegistrarReport
import InfernalLaw.Runs.RegistrarConverges
import InfernalLaw.Runs.ClaimHolders
import InfernalLaw.Runs.RouteSources
import InfernalLaw.Languages.Separated
import InfernalLaw.Kernel.NameGrammars
import InfernalLaw.Http.NameChecks
import InfernalLaw.Postgres.Answers
import InfernalLaw.Runs.EnrolledEndpoints
import InfernalLaw.Kernel.Identities
import InfernalLaw.Infrastructure.IdentityRepository
import InfernalLaw.Runs.StoredText
import InfernalLaw.Http.Dispatch
import InfernalLaw.Languages.Affixes
import InfernalLaw.Http.EnrollmentDto
import InfernalLaw.Runs.AuthorizedSubmissions
import InfernalLaw.Runs.RoutedSubmissions
import InfernalLaw.Http.MutatingHandlers
import InfernalLaw.Postgres.Leaves
import InfernalLaw.Runs.SpentRequests
import InfernalLaw.Runs.SafeRetries
import InfernalLaw.Infrastructure.KubernetesTokenReviewer
import InfernalLaw.Http.Gate
import InfernalLaw.Http.Enrollments
import InfernalLaw.Http.Server
import InfernalLaw.Postgres.Obeys
import InfernalLaw.Postgres.Discipline
import InfernalLaw.Postgres.Relations
import InfernalLaw.Infrastructure.Relations
import InfernalLaw.Infrastructure.Verdicts
import InfernalLaw.Infrastructure.Statements
import InfernalLaw.Runs.Kernel
import InfernalLaw.Runs.Integrity
import InfernalLaw.Postgres.Guards
import InfernalLaw.Runs.Callers
import InfernalLaw.Runs.Duties
import InfernalLaw.Runs.Mediation
import InfernalLaw.Runs.Replays
import InfernalLaw.Postgres.Tags
import InfernalLaw.Runs.Lineage
import InfernalLaw.Runs.Revocation

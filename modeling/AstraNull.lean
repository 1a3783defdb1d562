import AstraNull.NumberText
import AstraNull.JsonText
import AstraNull.CanonicalJson
import AstraNull.ScriptText
import AstraNull.ProbeJobSigning
import AstraNull.WorkerRequestSigning
import AstraNull.ActivityCursor
import AstraNull.ActivityWalk
import AstraNull.AuditChain
import AstraNull.Correlation
import AstraNull.CorrelationSafety
import AstraNull.CredentialWrites
import AstraNull.DlqRedrive
import AstraNull.DlqRedriveProtocol
import AstraNull.DnsOwnership
import AstraNull.DnsOwnershipHistory
import AstraNull.EmergencyStop
import AstraNull.FindingClosure
import AstraNull.LoginPasswords
import AstraNull.NotificationBound
import AstraNull.NotificationLifecycle
import AstraNull.ObservationHistory
import AstraNull.ProbeExecution
import AstraNull.ProbeJobLifecycle
import AstraNull.RunLifecycle
import AstraNull.SecondFactor
import AstraNull.SignedDestinations
import AstraNull.StopGuarantees
import AstraNull.TargetOwnership
import AstraNull.TrafficExclusion
import AstraNull.AddressRanges
import AstraNull.DnsTcp
import AstraNull.PortVerdicts
import AstraNull.RetestEvidence
import AstraNull.RunStart
import AstraNull.SmtpTransport
import AstraNull.VerdictReplay
import AstraNull.HighScale
import AstraNull.MailFraming
import AstraNull.NotificationStranding
import AstraNull.StartBudget
import AstraNull.CanonicalEncoders
import AstraNull.GrantBinding
import AstraNull.DnsAcceptance
import AstraNull.FindingDedupe
import AstraNull.FirewallChange
import AstraNull.FirewallDigest
import AstraNull.AddressIndex
import AstraNull.CymruNames
import AstraNull.DeepEquality
import AstraNull.DnsQuery
import AstraNull.IsoClock
import AstraNull.OwnershipChronology
import AstraNull.RateLimit
import AstraNull.VerificationOrder
import AstraNull.AddressedSecrets
import AstraNull.Base32
import AstraNull.CheckedObjects
import AstraNull.ClientKey
import AstraNull.ControlDeclarations
import AstraNull.CsvRecords
import AstraNull.DeclarationStability
import AstraNull.DeclaredPolicy
import AstraNull.PrivacyRetention
import AstraNull.Redaction
import AstraNull.RetentionFrame
import AstraNull.ScopeHash
import AstraNull.TargetCsvImport
import AstraNull.TargetPatch
import AstraNull.CursorPagination
import AstraNull.ActivityChannel
import AstraNull.CalendarDays
import AstraNull.SafeWindows
import AstraNull.SeriesSlots
import AstraNull.ActivityProjection

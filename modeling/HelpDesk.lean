import HelpDesk.Config
import HelpDesk.Server
import HelpDesk.Socket.Delivery
import HelpDesk.Database.Address
import HelpDesk.Proofs.StoreOwnership
import HelpDesk.Proofs.StoreHistory
import HelpDesk.Proofs.RegistryDelivery
import HelpDesk.Proofs.Executions
import HelpDesk.Proofs.Announcements
import HelpDesk.Proofs.Operations
import HelpDesk.Proofs.DashboardUpdates
import HelpDesk.Proofs.ConversationRows
import HelpDesk.Proofs.RegistryInvariant
import HelpDesk.Proofs.LifecycleRaces
import HelpDesk.Proofs.DashboardConvergence
import HelpDesk.Proofs.ConnectionTexts
import HelpDesk.Proofs.LiveFeed
import HelpDesk.Proofs.Assignments
import HelpDesk.Proofs.WriteAccess
import HelpDesk.Proofs.ChangeAnnouncements
import HelpDesk.Proofs.Confidentiality
import HelpDesk.Proofs.WireFormat
import HelpDesk.Proofs.FailedRequests
import HelpDesk.Proofs.WellFormedData
import HelpDesk.Proofs.FinishedConnections
import HelpDesk.Proofs.StoreChronology
import HelpDesk.Proofs.RegistryRelease
import HelpDesk.Proofs.ReadAccess
import HelpDesk.Proofs.HiddenErrors
import HelpDesk.Proofs.TextOutcomes
import HelpDesk.Proofs.Heartbeats
import HelpDesk.Proofs.ReaderRuns
import HelpDesk.Proofs.StartOutcomes
import HelpDesk.Proofs.Paging
import HelpDesk.Proofs.InboundTexts
import HelpDesk.Proofs.DecimalTexts
import HelpDesk.Proofs.Configuration
import HelpDesk.Proofs.IdentifierForms
import HelpDesk.Proofs.LetterCases
import HelpDesk.Proofs.Callers
import HelpDesk.Proofs.Snapshots
import HelpDesk.Proofs.NameTexts
import HelpDesk.Proofs.WriterProgress

import OrderFlow.Guarantees.Acknowledgements
import OrderFlow.Guarantees.ClientKeys
import OrderFlow.Guarantees.DeadLetters
import OrderFlow.Guarantees.HeaderCodec
import OrderFlow.Guarantees.OrphanRecords
import OrderFlow.Guarantees.TerminalStates
import OrderFlow.Guarantees.UnfinishedOrders
import OrderFlow.Guarantees.Backoff
import OrderFlow.Guarantees.CacheCoherence
import OrderFlow.Guarantees.CacheOutages
import OrderFlow.Guarantees.DeadLetterArchive
import OrderFlow.Guarantees.RetryHolding
import OrderFlow.Guarantees.PoisonPills
import OrderFlow.Guarantees.CommitDiscipline
import OrderFlow.Guarantees.AuditTrail
import OrderFlow.Guarantees.ReadVersions
import OrderFlow.Guarantees.GuardProtocol
import OrderFlow.Guarantees.RetryTransport
import OrderFlow.Guarantees.Redelivery
import OrderFlow.Guarantees.RetryLadder
import OrderFlow.Guarantees.EarnedVerdicts
import OrderFlow.Guarantees.FulfilAlone
import OrderFlow.Guarantees.ArchivedLetters
import OrderFlow.Guarantees.PastVersions
import OrderFlow.Guarantees.Receipts
import OrderFlow.Guarantees.GracefulStop
import OrderFlow.Guarantees.Counters
import OrderFlow.Guarantees.OneWorker
import OrderFlow.Guarantees.TopicBootstrap

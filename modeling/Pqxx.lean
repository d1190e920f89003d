import Pqxx.Lib.Prog
import Pqxx.Lib.Run
import Pqxx.CopyRoundTrip
import Pqxx.StatelessCursor
import Pqxx.PipelineMatching
import Pqxx.PipelineFlush
import Pqxx.PipelineCancel
import Pqxx.PipelineContract
import Pqxx.PipelineAttribution
import Pqxx.Transaction
import Pqxx.CommitVerdict
import Pqxx.ReactivationBalance
import Pqxx.StrConv
import Pqxx.ExecRetries
import Pqxx.IcursorIterators
import Pqxx.NotificationDelivery
import Pqxx.Transactor
import Pqxx.CopyText
import Pqxx.IntRendering
import Pqxx.RowSlices
import Pqxx.ReverseIterators
import Pqxx.LargeObjectSeeking
import Pqxx.LargeObjectWriting
import Pqxx.PendingErrors
import Pqxx.StatementGuard
import Pqxx.NestedTransactions
import Pqxx.StatementRegistry
import Pqxx.ListeningSet
import Pqxx.CopyFraming
import Pqxx.CursorQuery
import Pqxx.AdoptedCursor
import Pqxx.IteratorLists
import Pqxx.ReferenceRing
import Pqxx.StatementParameters
import Pqxx.NoticeDispatch
import Pqxx.AvoidanceExemption
import Pqxx.SessionRestoration
import Pqxx.RobustVerdict
import Pqxx.ErrorHandlers
import Pqxx.IcursorstreamReading
import Pqxx.TransactorAtomicity
import Pqxx.CopyTransfer
import Pqxx.StatementSending
import Pqxx.TransactionExclusion
import Pqxx.BlockOwnership
import Pqxx.SessionMooring
import Pqxx.NotificationFlow

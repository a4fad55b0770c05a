import DbApi.Proofs.RequestRoundTrip
import DbApi.Proofs.SizeLimit
import DbApi.Proofs.QueueFifo
import DbApi.Proofs.QueueProgress
import DbApi.Proofs.LockProgress
import DbApi.Proofs.BptreeMap
import DbApi.Proofs.CsvRoundTrip
import DbApi.Proofs.IndexRuns
import DbApi.Proofs.IndexedSelect
import DbApi.Proofs.ReadableRow
import DbApi.Proofs.FailedStatement
import DbApi.Proofs.ScanSelect
import DbApi.Proofs.WholeBody
import DbApi.Proofs.InsertStatement
import DbApi.Proofs.SqlRoundTrip
import DbApi.Proofs.MutualExclusion
import DbApi.Proofs.SqlLossless
import DbApi.Proofs.SqlGrammar
import DbApi.Proofs.LockClassifier
import DbApi.Proofs.SelectBounds
import DbApi.Proofs.AppendOutcome
import DbApi.Proofs.RepoRoot
import DbApi.Proofs.Configuration
import DbApi.Proofs.ResponseFraming
import DbApi.Proofs.Reception
import DbApi.Proofs.RequestEffects
import DbApi.Concurrency.ThreadPool
import DbApi.Library.Custody
import DbApi.Proofs.PoolJobs
import DbApi.Proofs.ResponseText
import DbApi.Proofs.LogLines
import DbApi.Proofs.DebugSleep
import DbApi.Proofs.PathConfinement
import DbApi.Proofs.RequestLengths
import DbApi.Proofs.BptreeFailure
import DbApi.Proofs.BptreeInvariant
import DbApi.Proofs.BptreeForest
import DbApi.Proofs.TableAlias
import DbApi.Proofs.ReadStatement
import DbApi.Proofs.ConnectionOwnership
import DbApi.Proofs.Serializability
import DbApi.Proofs.ServedRows
import DbApi.Proofs.ServerRest
import DbApi.Proofs.Stateless

import Backlog.Cache.Session
import Backlog.Main
import Backlog.Task.Json
import Backlog.Proofs.Store.Coherence
import Backlog.Proofs.Store.CompareAndSwap
import Backlog.Proofs.Store.Lifecycle
import Backlog.Proofs.Interleaving.Budget
import Backlog.Proofs.Interleaving.Credit
import Backlog.Proofs.Interleaving.Mistake
import Backlog.Proofs.Dispatch.Crew
import Backlog.Proofs.Dispatch.Accounting
import Backlog.Proofs.Dispatch.Retrying
import Backlog.Proofs.Dispatch.Errand
import Backlog.Proofs.Dispatch.Startup
import Backlog.Proofs.Dispatch.Restart
import Backlog.Proofs.Interleaving.Ownership
import Backlog.Proofs.Interleaving.Stopping
import Backlog.Proofs.Interleaving.Draining
import Backlog.Proofs.Timestamp.Exchanged
import Backlog.Proofs.Json.Tokens
import Backlog.Proofs.Json.Records
import Backlog.Proofs.Json.RoundTrip
import Backlog.Proofs.Queue.Handover
import Backlog.Proofs.Interleaving.Promise
import Backlog.Proofs.Interleaving.Telling
import Backlog.Proofs.Interleaving.Counting
import Backlog.Proofs.Interleaving.Apart
import Backlog.Proofs.Interleaving.Stint
import Backlog.Proofs.Interleaving.Chronology
import Backlog.Proofs.Interleaving.Works
import Backlog.Proofs.Interleaving.Timetable
import Backlog.Proofs.Store.Retiring
import Backlog.Proofs.Dispatch.Progress
import Backlog.Proofs.Dispatch.Polling
import Backlog.Proofs.Dispatch.Reclaimed
import Backlog.Proofs.Cache.History
import Backlog.Proofs.Cache.Crowd
import Backlog.Proofs.Sql.Upgrade
import Backlog.Proofs.Sql.BreakingOff
import Backlog.Proofs.Queue.Withdrawal
import Backlog.Proofs.Store.Moments
import Backlog.Proofs.Settings.Lookup
import Backlog.Proofs.Dispatch.WorkingTimes

import Backlog.Settings
import Backlog.Text.Blank
import Backlog.Text.Numeral
import Backlog.Text.Quoted

/-!
# Settings from the environment

The settings as named texts: each is looked up under its full name, trimmed of blanks and read by the grammar of its
kind, and a setting that is not there has its default.  The settings are read in the order of their fields, so the
first unreadable one is reported; only if all can be read are they checked together.
-/

namespace Backlog.Settings

open Text

/-- A source of named texts, such as the environment of a process. -/
abbrev Lookup := String → Option String

/-- The full names of all settings. -/
def names : List String :=
  ["POLL_INTERVAL_MS", "QUERY_TIMEOUT_MS", "STORE_TIMEOUT_MS", "QUEUE_CAPACITY", "WORKERS", "WORK_MIN_MS",
   "WORK_MAX_MS", "STALE_AFTER_SECS", "MAX_ATTEMPTS", "UPDATE_RETRIES", "RETRY_BACKOFF_MS", "RECLAIM_ON_START",
   "SEED_TASKS"].map fun name => family ++ name

/-- The value of a setting: what its text says, or the default if it has none. -/
def valueOf {α : Type} (read : List Char → Except WordError α) (lookup : Lookup) (name : String) (default : α) :
    Except SettingError α :=
  match lookup (family ++ name) with
  | none => .ok default
  | some raw =>
    match read (trim raw.toList) with
    | .ok a => .ok a
    | .error e => .error (invalid name (quoted raw ++ ": " ++ e.message))

/-- The largest number of 64 bits, which bounds counts and the numbers of units in a span. -/
def most64 : Nat := 18446744073709551615

/-- The largest number of 32 bits, which bounds the numbers of attempts. -/
def most32 : Nat := 4294967295

/-- A span written in whole milliseconds. -/
def millis? (word : List Char) : Except WordError Duration := (natural? most64 word).map .ofMillis

/-- A span written in whole seconds. -/
def secs? (word : List Char) : Except WordError Duration := (natural? most64 word).map .ofSecs

/-- The settings that named texts describe, before they are checked together. -/
def readAll (lookup : Lookup) : Except SettingError Settings := do
  let pollInterval ← valueOf millis? lookup "POLL_INTERVAL_MS" standard.pollInterval
  let queryTimeout ← valueOf millis? lookup "QUERY_TIMEOUT_MS" standard.queryTimeout
  let storeTimeout ← valueOf millis? lookup "STORE_TIMEOUT_MS" standard.storeTimeout
  let queueCapacity ← valueOf (natural? most64) lookup "QUEUE_CAPACITY" standard.queueCapacity
  let workers ← valueOf (natural? most64) lookup "WORKERS" standard.workers
  let workMin ← valueOf millis? lookup "WORK_MIN_MS" standard.workMin
  let workMax ← valueOf millis? lookup "WORK_MAX_MS" standard.workMax
  let staleAfter ← valueOf secs? lookup "STALE_AFTER_SECS" standard.staleAfter
  let maxAttempts ← valueOf (natural? most32) lookup "MAX_ATTEMPTS" standard.maxAttempts
  let updateRetries ← valueOf (natural? most32) lookup "UPDATE_RETRIES" standard.updateRetries
  let retryBackoff ← valueOf millis? lookup "RETRY_BACKOFF_MS" standard.retryBackoff
  let reclaimOnStart ← valueOf truth? lookup "RECLAIM_ON_START" standard.reclaimOnStart
  return { pollInterval, queryTimeout, storeTimeout, queueCapacity, workers, workMin, workMax, staleAfter, maxAttempts,
           updateRetries, retryBackoff, reclaimOnStart }

/-- The settings that named texts describe, or the first complaint about them. -/
def ofLookup? (lookup : Lookup) : Except SettingError Settings := do
  let settings ← readAll lookup
  match settings.fault? with
  | none => return settings
  | some e => throw e

/-- The number of tasks to create at the start, none where nothing is said. -/
def seedTasks? (lookup : Lookup) : Except SettingError Nat := valueOf (natural? most64) lookup "SEED_TASKS" 0

end Backlog.Settings

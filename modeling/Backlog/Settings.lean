import Backlog.Error

/-!
# Settings

The settings of the dispatcher and its workers and those of the caches, their defaults, and what makes them unusable.

Key facts: settings without a fault are exactly the valid ones (`Settings.fault?_eq_none_iff`), and of several faults
the first in the order workers, queue, poll interval, work span, attempts is reported.
-/

namespace Backlog

/-- What the dispatcher and the workers are told to do. -/
structure Settings where
  /-- The time between two polls of the store. -/
  pollInterval : Duration
  /-- The limit of a listing that the dispatcher asks for. -/
  queryTimeout : Duration
  /-- The limit of every other call of the store. -/
  storeTimeout : Duration
  /-- The tasks that may wait between the dispatcher and the workers. -/
  queueCapacity : Nat
  /-- The number of workers. -/
  workers : Nat
  /-- The shortest time that work on a task takes. -/
  workMin : Duration
  /-- The longest time that work on a task takes. -/
  workMax : Duration
  /-- The age at which a task in processing counts as given up. -/
  staleAfter : Duration
  /-- The claims that a task is allowed. -/
  maxAttempts : Nat
  /-- The repetitions of an update that failed for a passing reason. -/
  updateRetries : Nat
  /-- The pause before the first repetition; each further pause is twice as long. -/
  retryBackoff : Duration
  /-- Whether the first poll takes back every task in processing, however young. -/
  reclaimOnStart : Bool
deriving DecidableEq, Repr

namespace Settings

/-- The settings that hold where nothing else is said. -/
def standard : Settings where
  pollInterval := .ofSecs 10
  queryTimeout := .ofSecs 5
  storeTimeout := .ofSecs 5
  queueCapacity := 100
  workers := 4
  workMin := .ofSecs 1
  workMax := .ofSecs 3
  staleAfter := .ofSecs 300
  maxAttempts := 3
  updateRetries := 2
  retryBackoff := .ofMillis 200
  reclaimOnStart := true

instance : Inhabited Settings := ⟨standard⟩

/-- The beginning of the name of every setting in the environment. -/
def family : String := "TASK_DISPATCH_"

/-- The complaint about the setting with this short name. -/
def invalid (name detail : String) : SettingError := ⟨family ++ name, detail⟩

/-- The first thing that makes settings unusable. -/
def fault? (s : Settings) : Option SettingError :=
  if s.workers = 0 then some (invalid "WORKERS" "must be at least 1")
  else if s.queueCapacity = 0 then some (invalid "QUEUE_CAPACITY" "must be at least 1")
  else if s.pollInterval.isZero then some (invalid "POLL_INTERVAL_MS" "must be greater than 0")
  else if s.workMax < s.workMin then
    some (invalid "WORK_MIN_MS" (s.workMin.text ++ " exceeds WORK_MAX_MS " ++ s.workMax.text))
  else if s.maxAttempts = 0 then some (invalid "MAX_ATTEMPTS" "must be at least 1")
  else none

/-- Whether the loops can run with these settings. -/
structure Valid (s : Settings) : Prop where
  workers_pos : 1 ≤ s.workers
  queueCapacity_pos : 1 ≤ s.queueCapacity
  pollInterval_pos : 0 < s.pollInterval.nanos
  workMin_le : s.workMin ≤ s.workMax
  maxAttempts_pos : 1 ≤ s.maxAttempts

theorem fault?_eq_none_iff (s : Settings) : s.fault? = none ↔ s.Valid := by
  constructor
  · intro h
    unfold fault? at h
    split at h
    · cases h
    split at h
    · cases h
    split at h
    · cases h
    split at h
    · cases h
    split at h
    · cases h
    rename_i h1 h2 h3 h4 h5
    refine ⟨by omega, by omega, ?_, ?_, by omega⟩
    · simp only [Duration.isZero, beq_iff_eq] at h3; omega
    · rw [Duration.lt_iff] at h4; rw [Duration.le_iff]; omega
  · rintro ⟨h1, h2, h3, h4, h5⟩
    have h3' : ¬ s.pollInterval.isZero = true := by simp only [Duration.isZero, beq_iff_eq]; omega
    have h4' : ¬ s.workMax < s.workMin := by rw [Duration.lt_iff]; rw [Duration.le_iff] at h4; omega
    simp [fault?, h3', h4', show ¬ s.workers = 0 by omega, show ¬ s.queueCapacity = 0 by omega,
      show ¬ s.maxAttempts = 0 by omega]

end Settings

/-- What the caches are told to do. -/
structure CacheSettings where
  /-- The time for which an entry lives where its writer says nothing. -/
  defaultTtl : Duration
  /-- The time between two sweeps of the expired entries. -/
  cleanupInterval : Duration
deriving DecidableEq, Repr

namespace CacheSettings

/-- The cache settings that hold where nothing else is said. -/
def standard : CacheSettings := ⟨.ofSecs 300, .ofSecs 60⟩

instance : Inhabited CacheSettings := ⟨standard⟩

/-- What makes cache settings unusable. -/
def fault? (s : CacheSettings) : Option SettingError :=
  if s.cleanupInterval.isZero then some (Settings.invalid "CACHE_CLEANUP_INTERVAL" "must be greater than 0")
  else none

end CacheSettings

end Backlog

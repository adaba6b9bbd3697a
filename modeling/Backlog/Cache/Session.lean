import Backlog.Cache.Sweeper
import Backlog.Settings

/-!
# A cache in use

A cache of texts under its settings, with its clock and the sweepers that run on it.  The clock stands still except
when it is advanced, and then everything that is due up to the new moment happens.
-/

namespace Backlog.Cache

/-- Whether a text occurs within another. -/
def occursIn (pattern : List Char) : List Char → Bool
  | [] => pattern.isEmpty
  | c :: r => pattern.isPrefixOf (c :: r) || occursIn pattern r

/-- A cache of texts, its clock, and its sweepers by name, the latest first; one that has ended has no state. -/
structure Session where
  settings : CacheSettings
  now : Instant
  cache : Timed String String
  sweepers : List (String × Option Sweeper)
deriving Inhabited

/-- What is done with a cache. -/
inductive Command where
  | get (key : String)
  | set (key value : String) (ttl : Duration)
  | setDefault (key value : String)
  | delete (key : String)
  | exists? (key : String)
  | deleteMatching (pattern : String)
  | sweep
  | isEmpty
  | advance (span : Duration)
  /-- Starts a sweeper. -/
  | startSweeper (name : String)
  /-- Ends a sweeper. -/
  | cancel (name : String)
  /-- Asks whether a sweeper has ended. -/
  | finished (name : String)

/-- What a command answers. -/
inductive Answer where
  | none
  | text (s : String)
  | flag (b : Bool)
  | count (n : Nat)
deriving DecidableEq, Repr

namespace Session

/-- A cache that nobody has used yet. -/
def start (settings : CacheSettings) : Session := ⟨settings, .zero, .empty, []⟩

/-- The clock moved on, and every sweep that has become due by then. -/
def advance (s : Session) (span : Duration) : Session :=
  let now := s.now + span
  let running := s.sweepers.filterMap fun e => e.2
  { s with
    now
    cache := running.foldl (fun c w => c.sweptBy (w.catchUp now).1) s.cache
    sweepers := s.sweepers.map fun e => (e.1, e.2.map fun w => (w.catchUp now).2) }

/-- The sweepers after the latest one of a name has been ended. -/
private def ended (name : String) : List (String × Option Sweeper) → List (String × Option Sweeper)
  | [] => []
  | (n, w) :: r => if n = name then (n, none) :: r else (n, w) :: ended name r

/-- Carries out a command. -/
def run (s : Session) : Command → Answer × Session
  | .get key =>
    let (v, cache) := s.cache.get key s.now
    (v.elim .none .text, { s with cache })
  | .set key value ttl => (.none, { s with cache := s.cache.set key value ttl s.now })
  | .setDefault key value => (.none, { s with cache := s.cache.set key value s.settings.defaultTtl s.now })
  | .delete key =>
    let (b, cache) := s.cache.delete key
    (.flag b, { s with cache })
  | .exists? key => (.flag (s.cache.exists? key s.now), s)
  | .deleteMatching pattern =>
    let (n, cache) := s.cache.deleteWhere fun key => occursIn pattern.toList key.toList
    (.count n, { s with cache })
  | .sweep =>
    let (n, cache) := s.cache.sweep s.now
    (.count n, { s with cache })
  | .isEmpty => (.flag (s.cache.size = 0), s)
  | .advance span => (.none, s.advance span)
  | .startSweeper name =>
    (.none, { s with sweepers := (name, Sweeper.start? s.settings.cleanupInterval s.now) :: s.sweepers })
  | .cancel name => (.none, { s with sweepers := ended name s.sweepers })
  | .finished name => ((s.sweepers.lookup name).elim .none fun w => .flag w.isNone, s)

end Session

end Backlog.Cache

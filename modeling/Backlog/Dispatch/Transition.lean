import Backlog.Dispatch.Step
import Backlog.Settings

/-!
# Transitions

A worker moves a task to its next status by an update that it repeats while the store fails for passing reasons, each
time after a pause twice as long as the one before.  An update that was not acknowledged may have taken effect all the
same; so a repeated update that is refused is taken for done if the stored task looks as the update would have left it.

Key facts: `Transition.afterUpdate` decides what follows an attempt, and the first attempt is never looked up again.
-/

namespace Backlog.Dispatch

/-- How far a transition has come. -/
inductive Transition where
  /-- An attempt is made, after so many failed ones; the pause after it would be so long. -/
  | updating (failures : Nat) (backoff : Duration)
  /-- An attempt has failed with an error, and the next one follows after a pause. -/
  | pausing (error : StoreError) (failures : Nat) (backoff : Duration)
  /-- A repeated attempt was refused, and the stored task is looked up. -/
  | confirming (error : StoreError)
  /-- The transition is over. -/
  | done (result : Except StoreError Unit)

namespace Transition

/-- The beginning of a transition. -/
def start (s : Settings) : Transition := .updating 0 s.retryBackoff

/-- What follows an attempt. -/
def afterUpdate (s : Settings) (failures : Nat) (backoff : Duration) : Except StoreError Unit → Transition
  | .ok () => .done (.ok ())
  | .error e =>
    if e.isConflict ∧ 0 < failures then .confirming e
    else if e.isTransient ∧ failures < s.updateRetries then .pausing e failures backoff
    else .done (.error e)

/-- Whether a stored task looks as an update would have left it. -/
def looksApplied (u : StatusUpdate) (t : Task) : Bool :=
  match u.expectedVersion with
  | some v => t.status = u.status ∧ t.version = v + 1
  | none => false

/-- What follows the look at the stored task. -/
def afterLookup (u : StatusUpdate) (error : StoreError) : Except StoreError (Option Task) → Transition
  | .ok (some t) => if looksApplied u t then .done (.ok ()) else .done (.error error)
  | _ => .done (.error error)

/-- The next step of the transition of a task by an update. -/
def next (s : Settings) (id : Int) (u : StatusUpdate) : Transition → Step Transition
  | updating failures backoff =>
    .call (.updateStatus id u) (some s.storeTimeout) none (afterUpdate s failures backoff)
  | pausing e failures backoff =>
    .sleep backoff (some (.done (.error e))) (.updating (failures + 1) backoff.double)
  | confirming e => .call (.getFresh id) (some s.storeTimeout) none (afterLookup u e)
  | done _ => .stop

end Transition

end Backlog.Dispatch

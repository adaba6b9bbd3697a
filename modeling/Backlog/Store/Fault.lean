import Backlog.Store.Request

/-!
# Faults

Rules by which calls of a store go wrong, for trying out what happens then.  A rule fits the calls that agree with it
in all that it names; it lets some of them pass first and then acts on a number of them.

Key facts: a call uses up at most one rule, the first that fits and is through with what it lets pass
(`FaultRule.choose`).
-/

namespace Backlog.Store

/-- What happens to a call. -/
inductive Effect where
  /-- It fails and does not reach the store. -/
  | fail (e : StoreError)
  /-- It reaches the store after a while. -/
  | delay (span : Duration)
  /-- It reaches the store at once, and its answer is held back for a while. -/
  | delayAnswer (span : Duration)
  /-- It reaches the store, but its success is reported as a call that did not answer in time. -/
  | loseAnswer
  /-- It breaks down before it reaches the store. -/
  | crash (text : String)
deriving DecidableEq, Repr

/-- A rule by which calls go wrong. -/
structure FaultRule where
  /-- The name of the calls that it fits, all names if there is none. -/
  name? : Option String
  /-- The task of the calls that it fits, all calls if there is none. -/
  id? : Option Int
  /-- The status of the calls that it fits, all calls if there is none. -/
  status? : Option Status
  /-- The calls that it lets pass before it acts. -/
  skip : Nat
  /-- The calls on which it acts. -/
  times : Nat
  effect : Effect
deriving DecidableEq, Repr

namespace FaultRule

/-- Whether a call is one of those that a rule names. -/
def fits (rule : FaultRule) (r : Request) : Bool :=
  (rule.name?.all fun n => r.name = n) && (rule.id?.all fun id => r.id? = some id)
    && (rule.status?.all fun a => r.status? = some a)

/-- What happens to a call under rules, and the rules that are left for later calls. -/
def choose (r : Request) : List FaultRule → Option Effect × List FaultRule
  | [] => (none, [])
  | rule :: rest =>
    if rule.fits r ∧ 0 < rule.times ∧ rule.skip = 0 then
      (some rule.effect, { rule with times := rule.times - 1 } :: rest)
    else
      let passed := if rule.fits r ∧ 0 < rule.times then { rule with skip := rule.skip - 1 } else rule
      let (effect, rest) := choose r rest
      (effect, passed :: rest)

end FaultRule

end Backlog.Store

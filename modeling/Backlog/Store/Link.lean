import Backlog.Store.Backend
import Backlog.Store.Fault
import Backlog.Store.Journal

/-!
# The link to a store

Calls go to a backend over a link that may hold them up, lose them or break down, by rule, and that keeps a journal.
A call that takes time is a value of its own, which is carried on when its moment has come.

Key facts: what happens to a call is settled when it begins (`Link.start`), and it reaches the backend at most once,
either at its beginning or at the end of its delay (`Link.resume`).
-/

namespace Backlog.Store

/-- A backend with the rules and the journal of the link to it. -/
structure Link where
  backend : Backend
  rules : List FaultRule
  journal : Journal
deriving Repr

/-- How far a call with an answer of type `α` has come. -/
inductive Stage (α : Type) where
  /-- It reaches the backend at a moment. -/
  | delayed (due : Instant)
  /-- It has reached the backend, and what came of it is held back until a moment. -/
  | held (due : Instant) (outcome : Outcome α)
  | ended (outcome : Outcome α)

/-- A call on its way. -/
structure Call (r : Request) where
  serial : Nat
  stage : Stage r.Answer

namespace Call

/-- The moment at which a call is to be carried on. -/
def due? {r : Request} (c : Call r) : Option Instant :=
  match c.stage with
  | .delayed due => some due
  | .held due _ => some due
  | .ended _ => none

/-- What came of a call that has ended. -/
def outcome? {r : Request} (c : Call r) : Option (Outcome r.Answer) :=
  match c.stage with
  | .ended o => some o
  | _ => none

end Call

namespace Link

/-- The error of a call that took effect without an answer. -/
def lostAnswer : StoreError := .timeout "update_status" (.ofMillis 1)

/-- Ends a call. -/
private def finish (l : Link) {r : Request} (serial : Nat) (o : Outcome r.Answer) : Call r × Link :=
  (⟨serial, .ended o⟩, { l with journal := l.journal.mark serial (.ofOutcome o) })

/-- Asks the backend. -/
def perform (l : Link) (wall : Timestamp) (r : Request) : Outcome r.Answer × Link :=
  let (o, backend) := l.backend.perform wall r
  (o, { l with backend })

/-- Begins a call and carries it as far as it comes at once. -/
def start (l : Link) (now : Instant) (wall : Timestamp) (r : Request) : Call r × Link :=
  let (serial, journal) := l.journal.enter now r
  let (effect, rules) := FaultRule.choose r l.rules
  let l := { l with journal, rules }
  match effect with
  | none =>
    let (o, l) := l.perform wall r
    l.finish serial o
  | some (.fail e) => l.finish serial (.error e)
  | some (.delay span) => (⟨serial, .delayed (now + span)⟩, l)
  | some (.delayAnswer span) =>
    let (o, l) := l.perform wall r
    (⟨serial, .held (now + span) o⟩, l)
  | some .loseAnswer =>
    match l.perform wall r with
    | (.answered (.ok _), l) => l.finish serial (.error lostAnswer)
    | (o, l) => l.finish serial o
  | some (.crash text) => l.finish serial (.crashed text)

/-- Carries a call on if its moment has come. -/
def resume (l : Link) (now : Instant) (wall : Timestamp) {r : Request} (c : Call r) : Call r × Link :=
  match c.stage with
  | .delayed due =>
    if due ≤ now then
      let (o, l) := l.perform wall r
      l.finish c.serial o
    else (c, l)
  | .held due o => if due ≤ now then l.finish c.serial o else (c, l)
  | .ended _ => (c, l)

end Link

end Backlog.Store

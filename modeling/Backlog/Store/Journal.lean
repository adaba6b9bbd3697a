import Backlog.Store.Request

/-!
# The journal of calls

Every call that is made at a store is entered when it begins and marked when it ends.  A call that was given up or
broke down stays unfinished.
-/

namespace Backlog.Store

/-- How a call in the journal has ended. -/
inductive Ending where
  | unfinished
  | succeeded
  | failed (e : StoreError)
deriving DecidableEq, Repr

/-- The mark that an outcome leaves in the journal. -/
def Ending.ofOutcome {α : Type} : Outcome α → Ending
  | .answered (.ok _) => .succeeded
  | .answered (.error e) => .failed e
  | .crashed _ => .unfinished

/-- A call in the journal. -/
structure JournalEntry where
  serial : Nat
  started : Instant
  request : Request
  ending : Ending
deriving DecidableEq, Repr

/-- The calls since the journal was last taken, the latest first. -/
structure Journal where
  entries : List JournalEntry
  nextSerial : Nat
deriving DecidableEq, Repr

namespace Journal

/-- The journal without calls. -/
def empty : Journal := ⟨[], 0⟩

/-- Enters a call that begins now, under a serial number. -/
def enter (j : Journal) (now : Instant) (r : Request) : Nat × Journal :=
  (j.nextSerial, ⟨⟨j.nextSerial, now, r, .unfinished⟩ :: j.entries, j.nextSerial + 1⟩)

/-- Calls with the one under a serial number marked as ended. -/
private def marked (serial : Nat) (ending : Ending) : List JournalEntry → List JournalEntry
  | [] => []
  | e :: rest => if e.serial = serial then { e with ending } :: rest else e :: marked serial ending rest

/-- Marks a call as ended. -/
def mark (j : Journal) (serial : Nat) (ending : Ending) : Journal :=
  { j with entries := marked serial ending j.entries }

/-- Takes the calls out, by the moment of their beginning and by task, calls without a task before the others. -/
def take (j : Journal) : List JournalEntry × Journal :=
  let before (a b : JournalEntry) : Bool :=
    a.started < b.started || (a.started = b.started && decide (a.request.id?.getD 0 ≤ b.request.id?.getD 0))
  (j.entries.reverse.mergeSort before, { j with entries := [] })

end Journal

end Backlog.Store

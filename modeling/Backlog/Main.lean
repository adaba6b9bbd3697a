import Backlog.Settings.Environment
import Backlog.Simulation.Command

/-!
# The program

Works off a backlog of demo tasks in simulated time, under the settings from the environment, and reports every change
of status.  It ends when all tasks have ended, or after an hour on the simulated clock.
-/

namespace Backlog.Program

open Simulation

/-- The moment at which the simulated wall clock starts. -/
def beginning : Timestamp := (Timestamp.ofUnix? 0 0).getD .earliest

/-- The time that the loops have for ending. -/
def grace : Duration := .ofSecs 10

/-- The longest time on the simulated clock, in seconds. -/
def mostSeconds : Nat := 3600

/-- The name of the one subscriber. -/
def listener : String := "listener"

/-- The world before the loops are started, with so many demo tasks. -/
def prepare (settings : Settings) (count : Nat) : World :=
  let link : Store.Link := ⟨.table .fresh, [], .empty⟩
  let w := World.start settings .standard beginning link true 256 false []
  let w := (w.run (.startSweepers "sweepers")).2
  let w := (w.run (.subscribe listener)).2
  (List.range count).foldl (fun w n => (w.run (.ask (.create ⟨s!"Demo task {n + 1}", "demo"⟩) none)).2) w

/-- Whether every task has ended. -/
def isOver (w : World) : Bool :=
  match (w.run (.ask .list none)).1 with
  | .tasks ts => ts.all fun t => t.status.isTerminal
  | _ => false

/-- A notice as it is reported, with the time on the simulated clock. -/
def report (now : Instant) : Delivery → String
  | .event e => s!"{now.text} task {e.event.taskId} of {e.userId} is {e.event.status.name}"
  | .lagged missed => s!"{now.text} missed {missed} notices"

/-- Lets a second pass, and says what is to be reported. -/
def tick (w : World) : List String × World :=
  let w := (w.run (.advance (.ofSecs 1))).2
  match w.run (.collect listener false) with
  | (.deliveries ds, w) => (ds.map (report w.now), w)
  | (_, w) => ([], w)

/-- Runs the loops until every task has ended. -/
def work (w : World) : IO World := do
  let mut w := w
  for _ in List.range mostSeconds do
    if isOver w then break
    let (lines, next) := tick w
    lines.forM IO.println
    w := next
  return w

/-- Runs the program under settings. -/
def runWith (settings : Settings) (count : Nat) : IO UInt32 := do
  IO.eprintln "Task Dispatch"
  IO.eprintln s!"   Workers: {settings.workers}  Queue: {settings.queueCapacity}  Poll: {settings.pollInterval.text}"
  match (prepare settings count).run .startLoops with
  | (.done, w) =>
    let w ← work w
    match (w.run (.stopLoops grace)).1 with
    | .shutdown (.error e) _ =>
      IO.eprintln ("Error: " ++ e.message)
      return 1
    | _ => return 0
  | (.settingError e, _) =>
    IO.eprintln ("Error: " ++ e.message)
    return 1
  | _ => return 1

/-- Reads the settings from the environment and runs the program. -/
def run : IO UInt32 := do
  let named ← Settings.names.filterMapM fun name => return (← IO.getEnv name).map fun text => (name, text)
  let lookup : Settings.Lookup := fun name => named.lookup name
  match Settings.ofLookup? lookup, Settings.seedTasks? lookup with
  | .ok settings, .ok count => runWith settings count
  | .error e, _ | _, .error e =>
    IO.eprintln ("Error: " ++ e.message)
    return 1

end Backlog.Program

/-- Runs the program. -/
def main : IO UInt32 := Backlog.Program.run

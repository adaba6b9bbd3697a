import Backlog.Simulation.Scheduler
import Backlog.Store.File

/-!
# Commands

What can be done in a simulated run, and how it is done.  A command that takes time lets the clock go on until it can
be replied to, or is left to itself in the background under a name.

Key facts: after every command everybody acts who can at that moment (`World.run`), and a command in the foreground is
given up after an hour (`World.longest`).
-/

namespace Backlog.Simulation

open Dispatch Sql Store

/-- A task that a command is about: one that is given, or one that the store holds. -/
inductive Subject where
  | given (t : Task)
  | stored (id : Int)

/-- Something that is done in a simulated run. -/
inductive Command where
  /-- Makes a request to the store, with a limit or without one. -/
  | ask (request : Request) (limit : Option Duration)
  /-- Lets time pass. -/
  | advance (span : Duration)
  /-- Asks what has become of a command in the background. -/
  | join (name : String)
  /-- Drops a command in the background where it waits. -/
  | abort (name : String)
  /-- Fires a token. -/
  | cancel (token : String)
  /-- Adds rules by which calls go wrong. -/
  | addFaults (rules : List FaultRule)
  /-- Takes the calls out of the journal. -/
  | takeJournal
  /-- Asks whether a stored task has started before it has ended. -/
  | isOrdered (id : Int)
  /-- Inserts a row past the store. -/
  | insertRow (values : List (String × Cell))
  /-- Reads all rows past the store. -/
  | readRows
  /-- Reads the counts of the shelf. -/
  | readShelf
  /-- Sweeps the shelf. -/
  | sweepShelf
  /-- Starts the sweepers of the shelf. -/
  | startSweepers (token : String)
  /-- Puts a task into the queue, waiting for room until a token fires if one is named. -/
  | enqueue (subject : Subject) (token : Option String)
  /-- Takes a task from the channel. -/
  | receive
  /-- Takes a task from the channel if that is possible without waiting. -/
  | tryReceive
  /-- Lists the tasks that the queue tracks. -/
  | readTracked
  /-- Lists the entries of the queue. -/
  | readEntries
  /-- Makes the queue forget a task. -/
  | untrack (id : Int)
  /-- Asks whether the queue tracks a task. -/
  | isTracked (id : Int)
  /-- Reads the sizes of the queue. -/
  | readQueue
  /-- Polls the store once. -/
  | poll (token : String)
  /-- Takes back old tasks once. -/
  | reclaim (token : String)
  /-- Runs the loop of the dispatcher. -/
  | runDispatcher (token : String)
  /-- Asks whether the loop of the dispatcher runs. -/
  | isRunning
  /-- Runs a worker. -/
  | runWorker (token : String)
  /-- Runs a number of workers. -/
  | runWorkers (count : Nat) (token : String)
  /-- Reads the counters. -/
  | readTally
  /-- Adds a subscriber. -/
  | subscribe (name : String)
  /-- Removes a subscriber. -/
  | unsubscribe (name : String)
  /-- Tells the owner of a task about it. -/
  | notify (userId : String) (event : StatusEvent)
  /-- Gives a subscriber what was sent since its last visit, by task or in the order of sending. -/
  | collect (name : String) (byTask : Bool)
  /-- Starts a dispatcher and its workers together. -/
  | startLoops
  /-- Stops the dispatcher and its workers and waits for them for a while. -/
  | stopLoops (grace : Duration)
  /-- Lets go of the dispatcher and its workers. -/
  | dropLoops

namespace World

/-- A run that has not begun: a front to a backend, settings, and the rules for notices. -/
def start (settings : Settings) (cacheSettings : CacheSettings) (wall : Timestamp) (link : Link) (shelved : Bool)
    (noticeCapacity : Nat) (isSilent : Bool) (refused : List Int) : World where
  settings
  cacheSettings
  wall
  now := .zero
  front := .ofLink link shelved
  sweepers := []
  notices := .empty noticeCapacity
  isSilent
  refused
  pipelines := [.empty settings.queueCapacity]
  loops := none
  tokens := []
  fired := []
  actors := []
  pending := []
  nextNumber := 1
  tokenFirst := true

/-- The longest time for which a command in the foreground waits. -/
def longest : Duration := .ofSecs 3600

/-- The name of the token of a dispatcher and its workers that were started together. -/
def loopsToken : String := "runtime"

/-- Asks the backend for a task, past everything before it. -/
def lookUp (w : World) (id : Int) : Outcome (Option Task) := (w.front.link.backend.perform w.wall (.get id)).1

/-- A command that is replied to at once. -/
private def answer (w : World) (reply : Reply) : Awaited × World := (.replied reply, w)

/-- A command whose reply is the end of an actor of its own. -/
private def byActor (w : World) (pipeline token : Nat) (job : Job) : Awaited × World :=
  let (number, w) := w.spawn pipeline token job
  (.actor number true, w)

/-- Begins to put a task into the queue. -/
private def beginEnqueue (w : World) (token : Option String) (t : Task) : Awaited × World :=
  match token with
  | none => w.byActor w.current 0 (.enqueue false t .tracking)
  | some name =>
    let (token, w) := w.token name
    w.byActor w.current token (.enqueue true t .tracking)

/-- Starts a dispatcher and its workers together, in place of others if there are any. -/
def startLoops (w : World) : Reply × World :=
  match w.settings.fault? with
  | some e => (.settingError e, w)
  | none =>
    let w :=
      match w.loops with
      | some l => w.fire l.token
      | none => w
    let pipeline := w.pipelines.length
    let w := { w with pipelines := w.pipelines ++ [Pipeline.empty w.settings.queueCapacity] }
    let (token, w) := w.newToken loopsToken
    let (dispatcher, w) := w.spawn pipeline token (.dispatcher .starting)
    let (workers, w) := w.spawnWorkers pipeline token w.settings.workers
    (.done, { w with loops := some ⟨pipeline, token, dispatcher :: workers⟩ })

/-- What a subscriber gets, by task if that is asked for. -/
private def arranged (byTask : Bool) (ds : List Delivery) : List Delivery :=
  let taskId : Delivery → Int
    | .event e => e.event.taskId
    | .lagged _ => 0
  if byTask then ds.mergeSort fun a b => taskId a ≤ taskId b else ds

/-- Begins a command: what its reply waits for. -/
def begin (w : World) : Command → Awaited × World
  | .ask request limit => w.byActor 0 0 (.ask request limit)
  | .advance span => w.byActor 0 0 (.pause span)
  | .join name =>
    match w.pending.lookup (some name) with
    | none => w.answer .gone
    | some awaited =>
      match w.outcome? awaited with
      | none => w.answer .waiting
      | some reply => { w with pending := w.pending.filter fun p => p.1 ≠ some name }.answer reply
  | .abort name =>
    let w :=
      match w.pending.lookup (some name) with
      | some (.actor number true) => w.remove number
      | _ => w
    { w with pending := w.pending.filter fun p => p.1 ≠ some name }.answer .nothing
  | .cancel name =>
    let (token, w) := w.token name
    (w.fire token).answer .nothing
  | .addFaults rules =>
    let link := { w.front.link with rules := w.front.link.rules ++ rules }
    { w with front := { w.front with link } }.answer .nothing
  | .takeJournal =>
    let (entries, journal) := w.front.link.journal.take
    let link := { w.front.link with journal }
    { w with front := { w.front with link } }.answer (.journal entries)
  | .isOrdered id =>
    match w.lookUp id with
    | .answered (.ok (some ⟨_, _, _, _, some started, some ended, _, _, _⟩)) => w.answer (.flag (started < ended))
    | .answered (.ok _) => w.answer .nothing
    | .answered (.error e) => w.answer (.storeError e)
    | .crashed text => w.answer (.crashed text)
  | .insertRow values =>
    match w.front.link.backend with
    | .table t =>
      match t.insert? values with
      | some t =>
        let link := { w.front.link with backend := .table t }
        { w with front := { w.front with link } }.answer (.inserted true)
      | none => w.answer (.inserted false)
    | .memory _ => w.answer .nothing
  | .readRows =>
    match w.front.link.backend with
    | .table t =>
      w.answer (.rows (t.columns.map fun c => c.name) (t.rows.map fun r =>
        t.columns.map fun c => (r.cells.lookup c.name).getD .null))
    | .memory _ => w.answer .nothing
  | .readShelf =>
    match w.front.shelf with
    | some s => w.answer (.shelf s.tasks.tally s.listing.tally s.tasks.size s.listing.size)
    | none => w.answer .nothing
  | .sweepShelf =>
    match w.front.shelf with
    | some s =>
      let (n, tasks) := s.tasks.sweep w.now
      let (m, listing) := s.listing.sweep w.now
      { w with front := { w.front with shelf := some { s with tasks, listing } } }.answer (.swept n m)
    | none => w.answer .nothing
  | .startSweepers name =>
    let (token, w) := w.token name
    let started := (Cache.Sweeper.start? w.cacheSettings.cleanupInterval w.now).toList
    { w with sweepers := w.sweepers ++ started.map fun s => (token, s) }.answer .nothing
  | .enqueue (.given t) token => w.beginEnqueue token t
  | .enqueue (.stored id) token =>
    match w.lookUp id with
    | .answered (.ok (some t)) => w.beginEnqueue token t
    | .answered (.ok none) => w.answer .nothing
    | .answered (.error e) => w.answer (.storeError e)
    | .crashed text => w.answer (.crashed text)
  | .receive => w.byActor w.current 0 .receive
  | .tryReceive =>
    match (w.pipeline w.current).queue.channel.tryTake with
    | some (t, channel) => (w.modifyChannel w.current fun _ => channel).answer (.received t)
    | none => w.answer .wouldWait
  | .readTracked => w.answer (.tasks (w.pipeline w.current).queue.tasksById)
  | .readEntries => w.answer (.entries (w.pipeline w.current).queue.entries)
  | .untrack id =>
    (w.modifyQueue w.current fun q => (q.untrack id).2).answer (.flag ((w.pipeline w.current).queue.untrack id).1)
  | .isTracked id => w.answer (.flag ((w.pipeline w.current).queue.contains id))
  | .readQueue =>
    let q := (w.pipeline w.current).queue
    w.answer (.queue q.size q.channel.buffered q.channel.capacity)
  | .poll name =>
    let (token, w) := w.token name
    w.byActor 0 token (.poll .starting)
  | .reclaim name =>
    let (token, w) := w.token name
    w.byActor 0 token (.reclaim .listing)
  | .runDispatcher name =>
    let (token, w) := w.token name
    let (number, w) := w.spawn 0 token (.dispatcher .starting)
    (.actor number false, w)
  | .isRunning => w.answer (.running (w.pipeline w.current).isRunning)
  | .runWorker name =>
    let (token, w) := w.token name
    w.byActor 0 token (.worker .idle)
  | .runWorkers count name =>
    let (token, w) := w.token name
    let (numbers, w) := w.spawnWorkers 0 token count
    (.workers numbers, w)
  | .readTally => w.answer (.tally (w.pipeline w.current).tally)
  | .subscribe name => { w with notices := w.notices.subscribe name }.answer .nothing
  | .unsubscribe name =>
    let (b, notices) := w.notices.unsubscribe name
    { w with notices }.answer (.flag b)
  | .notify userId event =>
    match w.notify userId event with
    | .ok w => w.answer .nothing
    | .error text => w.answer (.crashed text)
  | .collect name byTask =>
    match w.notices.collect name with
    | some (ds, notices) => { w with notices }.answer (.deliveries (arranged byTask ds))
    | none => w.answer .nothing
  | .startLoops =>
    let (reply, w) := w.startLoops
    w.answer reply
  | .stopLoops grace =>
    match w.loops with
    | none => w.answer .nothing
    | some l => (.loops l.actors grace (w.now + grace), { w.fire l.token with loops := none })
  | .dropLoops =>
    match w.loops with
    | none => w.answer (.flag false)
    | some l => { w.fire l.token with loops := none }.answer (.flag true)

/-- Enters a command that has begun under a name, or as the one in the foreground, and lets everybody act. -/
private def enter (w : World) (name : Option String) (awaited : Awaited) : World :=
  let w := { w with pending := (name, awaited) :: w.pending.filter fun p => p.1 ≠ name }
  match awaited with
  | .loops _ grace _ => (if grace.isZero then w.endOverdue else w).settle
  | _ => w.settle

/-- Carries out a command in the foreground. -/
def run (w : World) (c : Command) : Reply × World :=
  let (awaited, w) := w.begin c
  let w := w.enter none awaited
  let reply? (w : World) : Option Reply := (w.pending.lookup none).bind w.outcome?
  let (reply, w) := runWith reply? (w.now + longest) patience w
  let own? : Option Nat :=
    match awaited with
    | .actor number true => some number
    | _ => none
  let w := own?.elim w w.remove
  (reply.getD .hung, { w with pending := w.pending.filter (fun p => p.1 ≠ none), wall := w.wall.addMicro })

/-- Begins a command in the background. -/
def runInBackground (w : World) (name : String) (c : Command) : Reply × World :=
  let (awaited, w) := w.begin c
  let w := w.enter (some name) awaited
  (.started, { w with wall := w.wall.addMicro })

end World

end Backlog.Simulation

import Backlog.Simulation.World

/-!
# The scheduler

Who acts when in a simulated run.  While anybody can act, the clock stands still: the actors act in the order of their
numbers, each until it has to wait, then the writes behind the shelf are carried on, and when nobody can act any more
those give up whose limits are reached.  Then the clock jumps to the next moment for which somebody waits.

Key facts: an operation that takes exactly as long as its limit succeeds, except that the limit of a caller who waits
for a write behind the shelf comes first (`World.settleWith`).
-/

namespace Backlog.Simulation

open Dispatch Store

namespace World

/-! ### Steps of actors -/

/-- An actor goes on with a job. -/
def goOn (w : World) (a : Actor) (job : Job) : World := w.put { a with job, wait := .ready }

/-- An actor waits. -/
def await (w : World) (a : Actor) (wait : Wait) : World := w.put { a with wait }

/-- An actor ends. -/
def finish (w : World) (a : Actor) (reply : Reply) : World := w.await a (.ended reply)

/-- An actor makes the next step of its job, or begins to wait for what the step needs. -/
def step (w : World) (a : Actor) : World :=
  match a.job.next w.settings with
  | .stop => w.finish a a.job.reply
  | .call r limit interrupted next =>
    let (flight, front) := w.front.start w.now w.wall r
    { w with front }.await a (.call r flight w.now limit interrupted next)
  | .isTracked id next => w.goOn a (next ((w.pipeline a.pipeline).queue.contains id))
  | .track task next => (w.modifyQueue a.pipeline fun q => q.track w.wall task).goOn a next
  | .untrack id next =>
    (w.modifyQueue a.pipeline fun q => (q.untrack id).2).goOn a
      (next ((w.pipeline a.pipeline).queue.untrack id).1)
  | .send task interrupted next =>
    (w.modifyChannel a.pipeline fun c => c.join a.number).await a (.room task interrupted next)
  | .receive interrupted next =>
    (w.modifyChannel a.pipeline fun c => c.queueUp a.number).await a (.item interrupted next)
  | .sleep span interrupted next => w.await a (.clock (w.now + span) interrupted fun _ => next)
  | .sleepUntil due interrupted next => w.await a (.clock due interrupted next)
  | .readClock next => w.goOn a (next w.now)
  | .readWallClock next => w.goOn a (next w.wall)
  | .isCancelled next => w.goOn a (next (w.hasFired a.token))
  | .draw least _ next => w.goOn a (next least)
  | .record count next => (w.modifyPipeline a.pipeline fun p => { p with tally := p.tally.record count }).goOn a next
  | .notify userId event next =>
    match w.notify userId event with
    | .ok w => w.goOn a next
    | .error text => w.finish a (.crashed text)
  | .showRunning running next => (w.modifyPipeline a.pipeline fun p => { p with isRunning := running }).goOn a next

/-- An actor whose token has fired goes on as its job says for that case. -/
def interrupt? (w : World) (a : Actor) (interrupted : Option Job) : Option World :=
  match interrupted with
  | some job => if w.hasFired a.token then some ((w.abandonWait a).goOn a job) else none
  | none => none

/-- An actor whose token may interrupt it goes on with what it waits for or as its job says for the case that the token
has fired.  Where both are open they take turns. -/
def goOnOrInterrupt? (w : World) (a : Actor) (interrupted : Option Job) (goOn? : World → Option World) : Option World :=
  match w.interrupt? a interrupted, goOn? w with
  | some _, some _ =>
    let turned := { w with tokenFirst := !w.tokenFirst }
    if w.tokenFirst then turned.interrupt? a interrupted else goOn? turned
  | some w, none => some w
  | none, o => o

/-- An actor acts, unless what it waits for is not there. -/
def act? (w : World) (a : Actor) : Option World :=
  match a.wait with
  | .ready => some (w.step a)
  | .call _ flight _ _ interrupted next =>
    let (flight, front) := w.front.resume w.now w.wall flight
    match flight.outcome? with
    | some (.answered result) => some ({ w with front }.goOn a (next result))
    | some (.crashed text) => some ({ w with front }.finish a (.crashed text))
    | none => w.interrupt? a interrupted
  | .room task interrupted next =>
    w.goOnOrInterrupt? a interrupted fun w =>
      if (w.pipeline a.pipeline).queue.channel.maySend a.number then
        some ((w.modifyChannel a.pipeline fun c => c.send a.number task).goOn a next)
      else none
  | .item interrupted next =>
    w.goOnOrInterrupt? a interrupted fun w =>
      ((w.pipeline a.pipeline).queue.channel.takeFor a.number).map fun (task, channel) =>
        (w.modifyChannel a.pipeline fun _ => channel).goOn a (next task)
  | .clock due interrupted next =>
    w.goOnOrInterrupt? a interrupted fun w => if due ≤ w.now then some (w.goOn a (next w.now)) else none
  | .ended _ => none

/-- An actor whose limit is reached goes on without an answer; the callers of writes behind the shelf and all others
are looked at apart. -/
def expire? (w : World) (ofWrite : Bool) (a : Actor) : Option World :=
  match a.wait with
  | .call r flight since (some limit) _ next =>
    if since + limit ≤ w.now ∧ flight.isWriting = ofWrite then
      some ((w.abandonWait a).goOn a (next (.error (.timeout r.name limit))))
    else none
  | _ => none

/-! ### One moment -/

/-- More steps than any run makes at one moment. -/
def patience : Nat := 1000000000

/-- The actor with a number acts until it has to wait; says whether it or somebody before it has acted. -/
def actAll (number : Nat) : Nat → Bool × World → Bool × World
  | 0, r => r
  | fuel + 1, (acted, w) =>
    match (w.find? number).bind w.act? with
    | some w => actAll number fuel (true, w)
    | none => (acted, w)

/-- All actors act until they have to wait, in the order of their numbers; says whether anybody has acted. -/
def actInTurn (w : World) : Bool × World := w.actors.foldl (fun r a => actAll a.number patience r) (false, w)

/-- What a pending command replies by now, if it can. -/
def outcome? (w : World) : Awaited → Option Reply
  | .replied reply => some reply
  | .actor number _ => w.ending? number
  | .workers numbers => do
    let ends ← numbers.mapM w.ending?
    let crashed := ends.countP fun | .crashed _ => true | _ => false
    return .workers crashed (ends.length - crashed)
  | .loops numbers _ _ => do
    let ends ← numbers.mapM w.ending?
    let crash := ends.findSome? fun | .crashed text => some text | _ => none
    match crash with
    | some text =>
      return .shutdown (.error (.crashed ("task # panicked with message " ++ Text.quoted text))) true
    | none => return .shutdown (.ok ()) true

/-- Ends the loops that run on when their time of grace is over. -/
def endOverdue (w : World) : World :=
  w.pending.foldl (fun w (name, awaited) =>
    match awaited with
    | .loops numbers grace deadline =>
      if deadline ≤ w.now && (w.outcome? awaited).isNone then
        let remaining := numbers.countP fun n => (w.ending? n).isNone
        let w := numbers.foldl remove w
        let reply := Reply.shutdown (.error (.timeout remaining grace)) true
        { w with pending := w.pending.map fun p => if p.1 = name then (name, .replied reply) else p }
      else w
    | _ => w) w

/-- Lets everybody act who can at this moment, for at most so many rounds. -/
def settleWith : Nat → World → World
  | 0, w => w
  | fuel + 1, w =>
    match w.actInTurn with
    | (true, w) => settleWith fuel w
    | (false, w) =>
      match w.actors.findSome? (w.expire? true) with
      | some w => settleWith fuel w
      | none =>
        if w.front.hasReadyWrite w.now then
          settleWith fuel { w with front := w.front.settleWrites w.now w.wall }
        else
          match w.actors.findSome? (w.expire? false) with
          | some w => settleWith fuel w
          | none => w.endOverdue

/-- Lets everybody act who can at this moment. -/
def settle (w : World) : World := settleWith patience w

/-! ### The course of time -/

/-- The moments for which an actor waits. -/
def Wait.dues : Wait → List Instant
  | .call _ flight since limit _ _ => flight.due?.toList ++ (limit.map fun l => since + l).toList
  | .clock due _ _ => [due]
  | _ => []

/-- The next moment for which somebody waits. -/
def nextDue? (w : World) : Option Instant :=
  let deadline? (awaited : Awaited) : Option Instant :=
    match awaited with
    | .loops _ _ deadline => if (w.outcome? awaited).isNone then some deadline else none
    | _ => none
  let deadlines := w.pending.filterMap fun p => deadline? p.2
  let dues := w.actors.flatMap (fun a => Wait.dues a.wait) ++ w.front.dueWrites ++ deadlines
  dues.foldl (fun
    | none, d => some d
    | some m, d => some (if d < m then d else m)) none

/-- The clock moves to a moment, and the sweepers make the sweeps that are due by then. -/
def moveTo (w : World) (now : Instant) : World :=
  let running := w.sweepers.filter fun s => !w.hasFired s.1
  let swept (shelf : Shelf) : Shelf :=
    running.foldl (fun shelf (_, s) =>
      let last := (s.catchUp now).1
      { shelf with tasks := shelf.tasks.sweptBy last, listing := shelf.listing.sweptBy last }) shelf
  { w with
    now
    front := { w.front with shelf := w.front.shelf.map swept }
    sweepers := running.map fun (token, s) => (token, (s.catchUp now).2) }

/-- Lets time pass until a command can be replied to, but not beyond a moment, for at most so many jumps of the
clock. -/
def runWith (awaited : World → Option Reply) (limit : Instant) : Nat → World → Option Reply × World
  | 0, w => (none, w)
  | fuel + 1, w =>
    match awaited w with
    | some reply => (some reply, w)
    | none =>
      match w.nextDue? with
      | some due =>
        if due ≤ limit then runWith awaited limit fuel (w.moveTo due).settle else (none, w.moveTo limit)
      | none => (none, w.moveTo limit)

end World

end Backlog.Simulation

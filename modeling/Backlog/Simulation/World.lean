import Backlog.Cache.Sweeper
import Backlog.Simulation.Job
import Backlog.Store.Front

/-!
# The world of a simulated run

A store, queues with their counters, subscribers, and the actors that work on them, with a clock that stands still
while anybody can act.  An actor is a job with a token and with what it waits for.

Key facts: every actor has a number of its own, under which it also waits at a channel (`World.spawn`), and an actor
that is removed gives up whatever it waits for (`World.remove`).
-/

namespace Backlog.Simulation

open Dispatch Store

/-- What an actor waits for, and how it goes on. -/
inductive Wait where
  /-- Nothing: it is about to make its next step. -/
  | ready
  /-- The answer of the store, from a moment on and perhaps for a limited time. -/
  | call (request : Request) (flight : Flight request) (since : Instant) (limit : Option Duration)
      (interrupted : Option Job) (next : Except StoreError request.Answer → Job)
  /-- Room for a task in the channel. -/
  | room (task : Task) (interrupted : Option Job) (next : Job)
  /-- A task in the channel. -/
  | item (interrupted : Option Job) (next : Task → Job)
  /-- A moment. -/
  | clock (due : Instant) (interrupted : Option Job) (next : Instant → Job)
  /-- Nothing any more. -/
  | ended (reply : Reply)

/-- Somebody who acts. -/
structure Actor where
  number : Nat
  /-- The number of the pipeline on which it works. -/
  pipeline : Nat
  token : Nat
  job : Job
  wait : Wait

/-- A queue between a dispatcher and its workers, their counters, and whether the dispatcher shows that it runs. -/
structure Pipeline where
  queue : Queue
  tally : Tally
  isRunning : Bool

/-- The pipeline with room for so many tasks in its channel, before anything has happened. -/
def Pipeline.empty (capacity : Nat) : Pipeline := ⟨.empty capacity, .empty, false⟩

instance : Inhabited Pipeline := ⟨.empty 1⟩

/-- A dispatcher and its workers that were started together: their pipeline, their token and their numbers. -/
structure Loops where
  pipeline : Nat
  token : Nat
  actors : List Nat

/-- What the reply to a command waits for. -/
inductive Awaited where
  /-- The end of an actor, which is removed with the command if it belongs to it. -/
  | actor (number : Nat) (belongs : Bool)
  /-- The ends of some workers. -/
  | workers (numbers : List Nat)
  /-- The ends of loops, up to a moment. -/
  | loops (numbers : List Nat) (grace : Duration) (deadline : Instant)
  /-- Nothing any more. -/
  | replied (reply : Reply)

/-- The state of a simulated run. -/
structure World where
  settings : Settings
  cacheSettings : CacheSettings
  /-- The time on the wall clock, which goes on by a microsecond with every command. -/
  wall : Timestamp
  now : Instant
  front : Front
  /-- The sweepers of the shelf, each with its token. -/
  sweepers : List (Nat × Cache.Sweeper)
  notices : Broadcast
  /-- Whether nobody is told anything. -/
  isSilent : Bool
  /-- The tasks about which nobody can be told: who tries to breaks down. -/
  refused : List Int
  /-- The pipelines by number; the first one belongs to no loops in particular. -/
  pipelines : List Pipeline
  loops : Option Loops
  /-- The tokens by name, the latest first. -/
  tokens : List (String × Nat)
  fired : List Nat
  actors : List Actor
  /-- The commands that were not replied to, by name; the one in the foreground has none. -/
  pending : List (Option String × Awaited)
  nextNumber : Nat
  /-- Whether the token comes first the next time that it has fired and there is also what an actor waits for. -/
  tokenFirst : Bool

namespace World

/-! ### Tokens -/

/-- Makes a new token of a name. -/
def newToken (w : World) (name : String) : Nat × World :=
  (w.nextNumber, { w with tokens := (name, w.nextNumber) :: w.tokens, nextNumber := w.nextNumber + 1 })

/-- The latest token of a name, which is made if there is none. -/
def token (w : World) (name : String) : Nat × World :=
  match w.tokens.lookup name with
  | some t => (t, w)
  | none => w.newToken name

/-- Whether a token has fired. -/
def hasFired (w : World) (token : Nat) : Bool := w.fired.contains token

/-- Fires a token. -/
def fire (w : World) (token : Nat) : World :=
  if w.hasFired token then w else { w with fired := token :: w.fired }

/-! ### Pipelines -/

/-- The pipeline with a number. -/
def pipeline (w : World) (i : Nat) : Pipeline := w.pipelines.getD i default

/-- The world with something done to the pipeline with a number. -/
def modifyPipeline (w : World) (i : Nat) (f : Pipeline → Pipeline) : World :=
  { w with pipelines := w.pipelines.modify i f }

/-- The world with something done to the queue of a pipeline. -/
def modifyQueue (w : World) (i : Nat) (f : Queue → Queue) : World :=
  w.modifyPipeline i fun p => { p with queue := f p.queue }

/-- The world with something done to the channel of a pipeline. -/
def modifyChannel (w : World) (i : Nat) (f : Channel → Channel) : World :=
  w.modifyQueue i fun q => { q with channel := f q.channel }

/-- The number of the pipeline on which commands act: that of the loops, or the first one. -/
def current (w : World) : Nat := (w.loops.map fun l => l.pipeline).getD 0

/-! ### Actors -/

/-- The actor with a number. -/
def find? (w : World) (number : Nat) : Option Actor := w.actors.find? fun a => a.number = number

/-- The world with an actor in a new state. -/
def put (w : World) (a : Actor) : World :=
  { w with actors := w.actors.map fun b => if b.number = a.number then a else b }

/-- Adds an actor with a job, and says what its number is. -/
def spawn (w : World) (pipeline token : Nat) (job : Job) : Nat × World :=
  (w.nextNumber,
    { w with
      actors := w.actors ++ [⟨w.nextNumber, pipeline, token, job, .ready⟩]
      nextNumber := w.nextNumber + 1 })

/-- Adds a number of workers, and says what their numbers are. -/
def spawnWorkers (w : World) (pipeline token : Nat) : Nat → List Nat × World
  | 0 => ([], w)
  | n + 1 =>
    let (number, w) := w.spawn pipeline token (.worker .idle)
    let (numbers, w) := w.spawnWorkers pipeline token n
    (number :: numbers, w)

/-- An actor gives up what it waits for. -/
def abandonWait (w : World) (a : Actor) : World :=
  match a.wait with
  | .call _ flight _ _ _ _ => { w with front := w.front.abandon flight }
  | .room _ _ _ => w.modifyChannel a.pipeline fun c => c.leave a.number
  | .item _ _ => w.modifyChannel a.pipeline fun c => c.turnAway a.number
  | _ => w

/-- Removes the actor with a number where it waits. -/
def remove (w : World) (number : Nat) : World :=
  match w.find? number with
  | none => w
  | some a =>
    let w := w.abandonWait a
    { w with actors := w.actors.filter fun b => b.number ≠ number }

/-- What an actor that has ended replies. -/
def ending? (w : World) (number : Nat) : Option Reply :=
  (w.find? number).bind fun a =>
    match a.wait with
    | .ended reply => some reply
    | _ => none

/-! ### Notices -/

/-- Tells the owner of a task about it, or breaks down. -/
def notify (w : World) (userId : String) (event : StatusEvent) : Except String World :=
  if w.refused.contains event.taskId then .error s!"notifier refused task {event.taskId}"
  else if w.isSilent then .ok w
  else .ok { w with notices := w.notices.send ⟨userId, event⟩ }

end World

end Backlog.Simulation

import Backlog.Dispatch.Tally
import Backlog.Store.Request

/-!
# Steps of a loop

The dispatcher and the workers are machines that act by steps.  A state of such a machine says what its next step asks
of the surroundings and which state follows each answer; the surroundings decide when the step happens and what its
answer is.  Every step touches what the machines share once, so that any interleaving of machines is an interleaving
of their steps.

A machine has a token that tells it to stop.  A step that may wait names the state that follows if the token fires
first; without one it waits to the end.
-/

namespace Backlog.Dispatch

open Store

/-- What the next step of a machine with states of type `σ` asks for. -/
inductive Step (σ : Type) where
  /-- Nothing: the machine has ended. -/
  | stop
  /-- Asks the store, within a limit if there is one. -/
  | call (request : Request) (limit : Option Duration) (interrupted : Option σ)
      (next : Except StoreError request.Answer → σ)
  /-- Asks whether the queue tracks a task. -/
  | isTracked (id : Int) (next : Bool → σ)
  /-- Makes the queue track a task. -/
  | track (task : Task) (next : σ)
  /-- Makes the queue forget a task, and learns whether it was tracked. -/
  | untrack (id : Int) (next : Bool → σ)
  /-- Puts a task into the channel, waiting for room. -/
  | send (task : Task) (interrupted : Option σ) (next : σ)
  /-- Takes a task from the channel, waiting for one. -/
  | receive (interrupted : Option σ) (next : Task → σ)
  /-- Waits for a span of time. -/
  | sleep (span : Duration) (interrupted : Option σ) (next : σ)
  /-- Waits for a moment, and learns when it went on. -/
  | sleepUntil (due : Instant) (interrupted : Option σ) (next : Instant → σ)
  /-- Reads the monotonic clock. -/
  | readClock (next : Instant → σ)
  /-- Reads the wall clock. -/
  | readWallClock (next : Timestamp → σ)
  /-- Asks whether the token has fired. -/
  | isCancelled (next : Bool → σ)
  /-- Draws a number between two bounds at random. -/
  | draw (least most : Nat) (next : Nat → σ)
  /-- Counts something. -/
  | record (count : Count) (next : σ)
  /-- Tells the owner of a task about it. -/
  | notify (userId : String) (event : StatusEvent) (next : σ)
  /-- Shows whether the loop of the dispatcher is running. -/
  | showRunning (running : Bool) (next : σ)

/-- The same step for a machine whose states are made from those of another. -/
def Step.map {σ τ : Type} (f : σ → τ) : Step σ → Step τ
  | stop => .stop
  | call r limit interrupted next => .call r limit (interrupted.map f) fun a => f (next a)
  | isTracked id next => .isTracked id fun b => f (next b)
  | track task next => .track task (f next)
  | untrack id next => .untrack id fun b => f (next b)
  | send task interrupted next => .send task (interrupted.map f) (f next)
  | receive interrupted next => .receive (interrupted.map f) fun t => f (next t)
  | sleep span interrupted next => .sleep span (interrupted.map f) (f next)
  | sleepUntil due interrupted next => .sleepUntil due (interrupted.map f) fun t => f (next t)
  | readClock next => .readClock fun t => f (next t)
  | readWallClock next => .readWallClock fun t => f (next t)
  | isCancelled next => .isCancelled fun b => f (next b)
  | draw least most next => .draw least most fun n => f (next n)
  | record count next => .record count (f next)
  | notify userId event next => .notify userId event (f next)
  | showRunning running next => .showRunning running (f next)

end Backlog.Dispatch

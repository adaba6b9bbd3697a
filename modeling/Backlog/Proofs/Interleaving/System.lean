import Backlog.Simulation.Job
import Backlog.Store.Backend

/-!
# Runtimes that share a store

Any number of runtimes, each with a queue, counters and jobs of its own, work on one store.  The jobs act by turns, one
step of one job at a time, in any order and as long as they like between two steps.  A call of the store is answered at
once or in vain: its caller gets an error that may pass, and the request drifts on and may reach the store at any later
time, or never.  A store that refuses an update may find out later why.

Everybody who does anything has a seat in a runtime, and a seat counts the jobs that have been taken there and the tasks
that were received from the channel.  So a seat and a round name the one who makes a call (`Author`).

Key facts: a choice says who acts and how (`System.step`), and what has been done is told by events.  A property of
what a job comes to is shown for all that may follow its next step (`Step.All`).  Whatever happens is one of a few
things (`System.happens_of_step`), and a job that acts has been served in one of a few ways (`System.serves_of_serve`).
-/

namespace Backlog

/-! ### What may follow a step -/

namespace Dispatch.Step

open Store

variable {σ τ : Type}

/-- Whatever follows a step has a property, if the answers of the store and the tasks from the channel have theirs. -/
def All (answers : (r : Request) → Except StoreError r.Answer → Prop) (came : Task → Prop) (P : σ → Prop) :
    Step σ → Prop
  | stop => True
  | call r _ interrupted next => (∀ y, interrupted = some y → P y) ∧ ∀ result, answers r result → P (next result)
  | isTracked _ next => ∀ b, P (next b)
  | track _ next => P next
  | untrack _ next => ∀ b, P (next b)
  | send _ interrupted next => (∀ y, interrupted = some y → P y) ∧ P next
  | receive interrupted next => (∀ y, interrupted = some y → P y) ∧ ∀ t, came t → P (next t)
  | sleep _ interrupted next => (∀ y, interrupted = some y → P y) ∧ P next
  | sleepUntil _ interrupted next => (∀ y, interrupted = some y → P y) ∧ ∀ t, P (next t)
  | readClock next => ∀ t, P (next t)
  | readWallClock next => ∀ t, P (next t)
  | isCancelled next => ∀ b, P (next b)
  | draw _ _ next => ∀ n, P (next n)
  | record _ next => P next
  | notify _ _ next => P next
  | showRunning _ next => P next

/-- The request that a step makes, if it makes one, has a property. -/
def Asks (R : Request → Prop) : Step σ → Prop
  | call r _ _ _ => R r
  | _ => True

variable {answers answers' : (r : Request) → Except StoreError r.Answer → Prop} {came came' : Task → Prop}
  {P Q : σ → Prop}

theorem All.mono {st : Step σ} (h : st.All answers came P) (hanswers : ∀ r result, answers' r result → answers r result)
    (hcame : ∀ t, came' t → came t) (hPQ : ∀ y, P y → Q y) : st.All answers' came' Q := by
  cases st with
  | stop => trivial
  | call r limit interrupted next =>
    exact ⟨fun y hy => hPQ y (h.1 y hy), fun result hr => hPQ _ (h.2 result (hanswers r result hr))⟩
  | send task interrupted next => exact ⟨fun y hy => hPQ y (h.1 y hy), hPQ _ h.2⟩
  | receive interrupted next => exact ⟨fun y hy => hPQ y (h.1 y hy), fun t ht => hPQ _ (h.2 t (hcame t ht))⟩
  | sleep span interrupted next => exact ⟨fun y hy => hPQ y (h.1 y hy), hPQ _ h.2⟩
  | sleepUntil due interrupted next => exact ⟨fun y hy => hPQ y (h.1 y hy), fun t => hPQ _ (h.2 t)⟩
  | track task next => exact hPQ _ h
  | record count next => exact hPQ _ h
  | notify userId event next => exact hPQ _ h
  | showRunning running next => exact hPQ _ h
  | isTracked id next => exact fun b => hPQ _ (h b)
  | untrack id next => exact fun b => hPQ _ (h b)
  | readClock next => exact fun t => hPQ _ (h t)
  | readWallClock next => exact fun t => hPQ _ (h t)
  | isCancelled next => exact fun b => hPQ _ (h b)
  | draw least most next => exact fun n => hPQ _ (h n)

theorem All.imp {st : Step σ} (h : st.All answers came P) (hPQ : ∀ y, P y → Q y) : st.All answers came Q :=
  h.mono (fun _ _ h => h) (fun _ h => h) hPQ

/-- What holds whatever follows holds if no task comes from the channel. -/
theorem All.still {st : Step σ} (h : st.All answers came P) : st.All answers (fun _ => False) P :=
  h.mono (fun _ _ h => h) (fun _ h => h.elim) fun _ h => h

theorem all_of_forall (h : ∀ y, P y) (st : Step σ) : st.All answers came P := by
  cases st <;> first
    | trivial
    | exact h _
    | exact fun _ => h _
    | exact ⟨fun y _ => h y, h _⟩
    | exact ⟨fun y _ => h y, fun _ => h _⟩
    | exact ⟨fun y _ => h y, fun _ _ => h _⟩

private theorem forall_map_iff {f : σ → τ} {o : Option σ} {P : τ → Prop} :
    (∀ y, o.map f = some y → P y) ↔ ∀ y, o = some y → P (f y) := by
  cases o <;> simp

theorem all_map {f : σ → τ} {P : τ → Prop} {st : Step σ} :
    (st.map f).All answers came P ↔ st.All answers came fun y => P (f y) := by
  cases st <;> simp only [map, All, forall_map_iff]

theorem map_map {υ : Type} {f : σ → τ} {g : τ → υ} {st : Step σ} :
    (st.map f).map g = st.map fun y => g (f y) := by
  cases st <;> simp only [map, Option.map_map, Function.comp_def]

theorem asks_map {f : σ → τ} {R : Request → Prop} {st : Step σ} : (st.map f).Asks R ↔ st.Asks R := by
  cases st <;> rfl

end Dispatch.Step

namespace Store

/-- The version of a stored task. -/
def Backend.versionOf? (b : Backend) (id : Int) : Option Int :=
  match (b.perform default (.get id)).1 with
  | .answered (.ok (some t)) => some t.version
  | _ => none

/-- The status and the version of a stored task. -/
def Backend.stateOf? (b : Backend) (id : Int) : Option (Status × Int) :=
  match (b.perform default (.get id)).1 with
  | .answered (.ok (some t)) => some (t.status, t.version)
  | _ => none

end Store

namespace Interleaving

open Dispatch Simulation Store

/-! ### Runtimes and their jobs -/

/-- Who makes a call: a seat of a runtime in one of its rounds. -/
structure Author where
  runtime : Nat
  seat : Nat
  round : Nat
deriving DecidableEq

/-- A place for a job. -/
structure Seat where
  /-- The jobs that were begun and the tasks that were received here. -/
  round : Nat
  job : Job

/-- A dispatcher with its workers, and what they share. -/
structure Runtime where
  settings : Settings
  queue : Queue
  tally : Tally
  isRunning : Bool
  /-- Whether its token has fired. -/
  cancelled : Bool

/-- Runtimes and the store that they share. -/
structure System where
  store : Backend
  wall : Timestamp
  /-- The requests whose callers have given up. -/
  drifting : List (Author × Request)
  runtimes : Nat → Runtime
  seats : Nat → Nat → Seat

/-- Something that has been done. -/
inductive Event where
  /-- An update of a status has moved a task on from a version. -/
  | landed (author : Author) (id version : Int)
  /-- A caller has learnt what came of an update of a status. -/
  | attempted (author : Author) (id : Int) (update : StatusUpdate) (result : Except StoreError Unit)
  /-- A worker goes on as one whose transition has moved a task on from a version. -/
  | credited (author : Author) (id version : Int)

/-- How a job acts. -/
inductive How where
  /-- As its next step says. -/
  | go
  /-- Its call fails for a passing reason. -/
  | fail (e : StoreError)
  /-- Its call is refused for a reason that the store has found out later. -/
  | refuse (e : StoreError)
  /-- It gives up because the token has fired. -/
  | interrupt
  /-- It reads the monotonic clock or wakes up at a moment. -/
  | at (moment : Instant)
  /-- It draws a number. -/
  | draw (n : Nat)

/-- What happens next. -/
inductive Choice where
  /-- Somebody begins a job. -/
  | spawn (runtime seat : Nat) (job : Job)
  | act (runtime seat : Nat) (how : How)
  /-- One of the drifting requests reaches the store. -/
  | land (k : Nat)
  | cancel (runtime : Nat)
  | setWall (wall : Timestamp)

/-- Whether a job is at its beginning. -/
def isBeginning : Job → Bool
  | .dispatcher .starting => true
  | .worker .idle => true
  | .poll .starting => true
  | .reclaim .listing => true
  | .ask _ _ => true
  | .enqueue _ _ .tracking => true
  | .receive => true
  | .pause _ => true
  | _ => false

/-- The transition of a task by an update. -/
structure Pursuit where
  id : Int
  update : StatusUpdate
  stage : Transition

/-- The transition that a worker pursues. -/
def pursuit? : Job → Option Pursuit
  | .worker (.claiming task start stage) => some ⟨task.id, Worker.claim task start, stage⟩
  | .worker (.completing task _ finish stage) => some ⟨task.id, Worker.completion task finish, stage⟩
  | _ => none

/-- What a job has just been credited with: a task and the version from which it was moved on. -/
def credit? (job : Job) : Option (Int × Int) :=
  match pursuit? job with
  | some ⟨id, u, .done (.ok ())⟩ => u.expectedVersion.map fun version => (id, version)
  | _ => none

/-- What a request does to a store, told by events. -/
def landing (b : Backend) (wall : Timestamp) (a : Author) : Request → List Event
  | .updateStatus id u =>
    match (b.perform wall (.updateStatus id u)).1 with
    | .answered (.ok _) => (b.versionOf? id).toList.map (.landed a id)
    | _ => []
  | _ => []

namespace System

/-- Runtimes with these settings, before anybody has begun anything. -/
def start (b : Backend) (wall : Timestamp) (settings : Nat → Settings) : System where
  store := b
  wall
  drifting := []
  runtimes p := ⟨settings p, .empty (settings p).queueCapacity, .empty, false, false⟩
  seats _ _ := ⟨0, .ended .nothing⟩

/-- The system with something done to a runtime. -/
def modify (x : System) (p : Nat) (f : Runtime → Runtime) : System :=
  { x with runtimes := fun q => if q = p then f (x.runtimes q) else x.runtimes q }

/-- The system with something done to the channel of a runtime. -/
def modifyChannel (x : System) (p : Nat) (f : Channel → Channel) : System :=
  x.modify p fun r => { r with queue := { r.queue with channel := f r.queue.channel } }

/-- The system with a seat in a new state. -/
def setSeat (x : System) (p i : Nat) (s : Seat) : System :=
  { x with seats := fun q j => if q = p ∧ j = i then s else x.seats q j }

/-- What a caller learns, told by events. -/
def attempt (a : Author) : (r : Request) → Except StoreError r.Answer → List Event
  | .updateStatus id u, result => [.attempted a id u result]
  | _, _ => []

/-- A job that acts in one of the ways that its next step allows: the seat afterwards, the rest of the system, and the
events. -/
def serve (x : System) (p i : Nat) (s : Seat) (how : How) : Step Job → Option (Seat × System × List Event)
  | .stop => none
  | .call r _ interrupted next =>
    match how, interrupted with
    | .go, _ =>
      match (x.store.perform x.wall r).1 with
      | .answered result =>
        some (⟨s.round, next result⟩, { x with store := (x.store.perform x.wall r).2 },
          landing x.store x.wall ⟨p, i, s.round⟩ r ++ attempt ⟨p, i, s.round⟩ r result)
      | .crashed _ => none
    | .fail e, _ =>
      if e.isTransient then
        some (⟨s.round, next (.error e)⟩, { x with drifting := x.drifting ++ [(⟨p, i, s.round⟩, r)] },
          attempt ⟨p, i, s.round⟩ r (.error e))
      else none
    | .refuse e, _ =>
      match (x.store.perform x.wall r).1 with
      | .answered (.error e') =>
        if e.isSuperseded ∧ e'.isSuperseded then
          some (⟨s.round, next (.error e)⟩, x, attempt ⟨p, i, s.round⟩ r (.error e))
        else none
      | _ => none
    | .interrupt, some job =>
      if (x.runtimes p).cancelled then
        some (⟨s.round, job⟩, { x with drifting := x.drifting ++ [(⟨p, i, s.round⟩, r)] }, [])
      else none
    | _, _ => none
  | .isTracked id next => some (⟨s.round, next ((x.runtimes p).queue.contains id)⟩, x, [])
  | .track task next =>
    some (⟨s.round, next⟩, x.modify p fun r => { r with queue := r.queue.track x.wall task }, [])
  | .untrack id next =>
    some (⟨s.round, next ((x.runtimes p).queue.untrack id).1⟩,
      x.modify p fun r => { r with queue := (r.queue.untrack id).2 }, [])
  | .send task interrupted next =>
    let channel := (x.runtimes p).queue.channel
    match how, interrupted with
    | .go, _ =>
      if channel.maySend i then some (⟨s.round, next⟩, x.modifyChannel p fun c => c.send i task, [])
      else if channel.senders.contains i then none
      else some (s, x.modifyChannel p fun c => c.join i, [])
    | .interrupt, some job =>
      if (x.runtimes p).cancelled then some (⟨s.round, job⟩, x.modifyChannel p fun c => c.leave i, []) else none
    | _, _ => none
  | .receive interrupted next =>
    let channel := (x.runtimes p).queue.channel
    match how, interrupted with
    | .go, _ =>
      match channel.takeFor i with
      | some (task, channel) => some (⟨s.round + 1, next task⟩, x.modifyChannel p fun _ => channel, [])
      | none =>
        if channel.receivers.contains i then none else some (s, x.modifyChannel p fun c => c.queueUp i, [])
    | .interrupt, some job =>
      if (x.runtimes p).cancelled then some (⟨s.round, job⟩, x.modifyChannel p fun c => c.turnAway i, []) else none
    | _, _ => none
  | .sleep _ interrupted next =>
    match how, interrupted with
    | .go, _ => some (⟨s.round, next⟩, x, [])
    | .interrupt, some job => if (x.runtimes p).cancelled then some (⟨s.round, job⟩, x, []) else none
    | _, _ => none
  | .sleepUntil _ interrupted next =>
    match how, interrupted with
    | .at moment, _ => some (⟨s.round, next moment⟩, x, [])
    | .interrupt, some job => if (x.runtimes p).cancelled then some (⟨s.round, job⟩, x, []) else none
    | _, _ => none
  | .readClock next =>
    match how with
    | .at moment => some (⟨s.round, next moment⟩, x, [])
    | _ => none
  | .readWallClock next => some (⟨s.round, next x.wall⟩, x, [])
  | .isCancelled next => some (⟨s.round, next (x.runtimes p).cancelled⟩, x, [])
  | .draw least most next =>
    match how with
    | .draw n => if least ≤ n ∧ n ≤ most then some (⟨s.round, next n⟩, x, []) else none
    | _ => none
  | .record count next =>
    some (⟨s.round, next⟩, x.modify p fun r => { r with tally := r.tally.record count }, [])
  | .notify _ _ next => some (⟨s.round, next⟩, x, [])
  | .showRunning running next => some (⟨s.round, next⟩, x.modify p fun r => { r with isRunning := running }, [])

/-- The job in a seat acts. -/
def act (x : System) (p i : Nat) (how : How) : Option (System × List Event) :=
  let s := x.seats p i
  (x.serve p i s how (s.job.next (x.runtimes p).settings)).map fun (s', y, es) =>
    (y.setSeat p i s', es ++ (credit? s'.job).toList.map fun c => .credited ⟨p, i, s'.round⟩ c.1 c.2)

/-- One thing happens, if it can. -/
def step (x : System) : Choice → Option (System × List Event)
  | .spawn p i job =>
    match x.seats p i with
    | ⟨round, .ended _⟩ => if isBeginning job then some (x.setSeat p i ⟨round + 1, job⟩, []) else none
    | _ => none
  | .act p i how => x.act p i how
  | .land k =>
    match x.drifting[k]? with
    | some (a, r) =>
      some ({ x with store := (x.store.perform x.wall r).2, drifting := x.drifting.eraseIdx k },
        landing x.store x.wall a r)
    | none => none
  | .cancel p => some (x.modify p fun r => { r with cancelled := true }, [])
  | .setWall wall => some ({ x with wall }, [])

/-- Many things happen one after another. -/
def run (x : System) : List Choice → Option (System × List Event)
  | [] => some (x, [])
  | c :: rest => do
    let (y, es) ← x.step c
    let (z, es') ← y.run rest
    return (z, es ++ es')

/-- What can come of a system by choices of a kind, and the events on the way there. -/
inductive Reaches (allowed : Choice → Prop) (x₀ : System) : System → List Event → Prop where
  | start : Reaches allowed x₀ x₀ []
  | step {x y es es' c} (h : Reaches allowed x₀ x es) (ok : allowed c) (s : x.step c = some (y, es')) :
    Reaches allowed x₀ y (es ++ es')

/-! ### What becomes of a job that acts -/

variable {x y : System} {p i : Nat} {s s' : Seat} {how : How} {st : Step Job} {es : List Event}

theorem seats_setSeat (x : System) (p i : Nat) (s : Seat) (q j : Nat) :
    (x.setSeat p i s).seats q j = if q = p ∧ j = i then s else x.seats q j := rfl

theorem settings_modify (x : System) (p : Nat) {f : Runtime → Runtime} (hf : ∀ r, (f r).settings = r.settings)
    (q : Nat) : ((x.modify p f).runtimes q).settings = (x.runtimes q).settings := by
  simp only [modify]
  split
  · exact hf _
  · rfl

private theorem modify_id (x : System) (p : Nat) : x.modify p (fun r => r) = x := by
  simp only [modify, ite_self]

/-- Whether a step waits in a line. -/
def isLine : Step Job → Bool
  | .send _ _ _ => true
  | .receive _ _ => true
  | _ => false

/-- The ways in which a job is served: its call is answered or fails or is refused or given up, it stays where it waits
in line, it receives a task, or it goes on with something that does not touch the store. -/
inductive Serves (x : System) (p i : Nat) (s : Seat) : Step Job → Seat → System → List Event → Prop where
  | answered {r limit interrupted next result} (answer : (x.store.perform x.wall r).1 = .answered result) :
    Serves x p i s (.call r limit interrupted next) ⟨s.round, next result⟩
      { x with store := (x.store.perform x.wall r).2 }
      (landing x.store x.wall ⟨p, i, s.round⟩ r ++ attempt ⟨p, i, s.round⟩ r result)
  | failed {r limit interrupted next e} (passing : e.isTransient = true) :
    Serves x p i s (.call r limit interrupted next) ⟨s.round, next (.error e)⟩
      { x with drifting := x.drifting ++ [(⟨p, i, s.round⟩, r)] } (attempt ⟨p, i, s.round⟩ r (.error e))
  | refused {r limit interrupted next e} (superseded : e.isSuperseded = true) :
    Serves x p i s (.call r limit interrupted next) ⟨s.round, next (.error e)⟩ x (attempt ⟨p, i, s.round⟩ r (.error e))
  | interrupted {r limit job next} (cancelled : (x.runtimes p).cancelled = true) :
    Serves x p i s (.call r limit (some job) next) ⟨s.round, job⟩
      { x with drifting := x.drifting ++ [(⟨p, i, s.round⟩, r)] } []
  | waited {st f} (lines : isLine st = true) (keeps : ∀ r, (f r).settings = r.settings) :
    Serves x p i s st s (x.modify p f) []
  | received {interrupted next f} (t : Task) (keeps : ∀ r, (f r).settings = r.settings) :
    Serves x p i s (.receive interrupted next) ⟨s.round + 1, next t⟩ (x.modify p f) []
  | went {st job f} (keeps : ∀ r, (f r).settings = r.settings) (noCall : st.Asks fun _ => False)
      (follows : ∀ answers P, st.All answers (fun _ => False) P → P job) :
    Serves x p i s st ⟨s.round, job⟩ (x.modify p f) []

/-- A step that touches no more than the system shows goes on as it says. -/
private theorem serves_same {job : Job} (noCall : st.Asks fun _ => False)
    (follows : ∀ answers P, st.All answers (fun _ => False) P → P job) : Serves x p i s st ⟨s.round, job⟩ x [] := by
  have hwent := Serves.went (x := x) (p := p) (i := i) (s := s) (f := fun r => r) (fun _ => rfl) noCall follows
  rwa [modify_id] at hwent

theorem serves_of_serve (h : x.serve p i s how st = some (s', y, es)) : Serves x p i s st s' y es := by
  -- only calls and lines can be served in more than one way
  cases st with
  | stop => cases h
  | call r limit interrupted next =>
    simp only [serve] at h
    split at h
    · split at h
      · rename_i answer
        cases h
        exact .answered answer
      · cases h
    · split at h
      · rename_i passing
        cases h
        exact .failed passing
      · cases h
    · split at h
      · split at h
        · rename_i superseded
          cases h
          exact .refused superseded.1
        · cases h
      · cases h
    · split at h
      · rename_i cancelled
        cases h
        exact .interrupted cancelled
      · cases h
    · cases h
  | send task interrupted next =>
    simp only [serve] at h
    split at h
    · split at h
      · cases h
        exact .went (fun _ => rfl) trivial fun _ _ hall => hall.2
      · split at h <;> cases h
        exact .waited rfl fun _ => rfl
    · split at h <;> cases h
      exact .went (fun _ => rfl) trivial fun _ _ hall => hall.1 _ rfl
    · cases h
  | receive interrupted next =>
    simp only [serve] at h
    split at h
    · split at h
      · cases h
        exact .received _ fun _ => rfl
      · split at h <;> cases h
        exact .waited rfl fun _ => rfl
    · split at h <;> cases h
      exact .went (fun _ => rfl) trivial fun _ _ hall => hall.1 _ rfl
    · cases h
  | sleep span interrupted next =>
    simp only [serve] at h
    split at h
    · cases h
      exact serves_same trivial fun _ _ hall => hall.2
    · split at h <;> cases h
      exact serves_same trivial fun _ _ hall => hall.1 _ rfl
    · cases h
  | sleepUntil due interrupted next =>
    simp only [serve] at h
    split at h
    · cases h
      exact serves_same trivial fun _ _ hall => hall.2 _
    · split at h <;> cases h
      exact serves_same trivial fun _ _ hall => hall.1 _ rfl
    · cases h
  | readClock next =>
    simp only [serve] at h
    split at h <;> cases h
    exact serves_same trivial fun _ _ hall => hall _
  | draw least most next =>
    simp only [serve] at h
    split at h
    · split at h <;> cases h
      exact serves_same trivial fun _ _ hall => hall _
    · cases h
  | isTracked id next =>
    cases h
    exact serves_same trivial fun _ _ hall => hall _
  | readWallClock next =>
    cases h
    exact serves_same trivial fun _ _ hall => hall _
  | isCancelled next =>
    cases h
    exact serves_same trivial fun _ _ hall => hall _
  | notify userId event next =>
    cases h
    exact serves_same trivial fun _ _ hall => hall
  | track task next =>
    cases h
    exact .went (fun _ => rfl) trivial fun _ _ hall => hall
  | untrack id next =>
    cases h
    exact .went (fun _ => rfl) trivial fun _ _ hall => hall _
  | record count next =>
    cases h
    exact .went (fun _ => rfl) trivial fun _ _ hall => hall
  | showRunning running next =>
    cases h
    exact .went (fun _ => rfl) trivial fun _ _ hall => hall

theorem Serves.seats_eq (h : Serves x p i s st s' y es) : y.seats = x.seats := by cases h <;> rfl

/-- Whatever a step may lead to, the job that acts comes to, unless it stays where it waits. -/
theorem Serves.of_all {P : Job → Prop} (h : Serves x p i s st s' y es)
    (hall : st.All (fun _ _ => True) (fun _ => True) P) : s' = s ∧ isLine st = true ∨ P s'.job := by
  cases h with
  | answered answer => exact .inr (hall.2 _ trivial)
  | failed passing => exact .inr (hall.2 _ trivial)
  | refused superseded => exact .inr (hall.2 _ trivial)
  | interrupted cancelled => exact .inr (hall.1 _ rfl)
  | waited lines keeps => exact .inl ⟨rfl, lines⟩
  | received t keeps => exact .inr (hall.2 t trivial)
  | went keeps noCall follows => exact .inr (follows _ _ hall.still)

/-- A job whose step is a call gets a result, and what comes of it is told. -/
theorem Serves.of_call {r : Request} {limit : Option Duration} {next : Except StoreError r.Answer → Job}
    (h : Serves x p i s (.call r limit none next) s' y es) :
    ∃ result, s' = ⟨s.round, next result⟩ ∧ (∀ e ∈ attempt ⟨p, i, s.round⟩ r result, e ∈ es) ∧
      ∀ a, result = .ok a → (x.store.perform x.wall r).1 = .ok a ∧
        ∀ e ∈ landing x.store x.wall ⟨p, i, s.round⟩ r, e ∈ es := by
  cases h with
  | answered answer =>
    refine ⟨_, rfl, fun e he => List.mem_append_right _ he, fun a ha => ⟨?_, fun e he => List.mem_append_left _ he⟩⟩
    rw [answer, ha]
    rfl
  | failed passing => exact ⟨_, rfl, fun e he => he, fun a ha => by cases ha⟩
  | refused superseded => exact ⟨_, rfl, fun e he => he, fun a ha => by cases ha⟩
  | waited lines keeps => cases lines
  | went keeps noCall follows => exact noCall.elim

theorem Serves.of_sleep {span : Duration} {interrupted : Option Job} {next : Job}
    (h : Serves x p i s (.sleep span interrupted next) s' y es) :
    s'.round = s.round ∧ (s'.job = next ∨ interrupted = some s'.job) := by
  cases h with
  | waited lines keeps => cases lines
  | went keeps noCall follows =>
    have hjob := follows (fun _ _ => True) (fun job => job = next ∨ interrupted = some job)
      ⟨fun y hy => .inr hy, .inl rfl⟩
    exact ⟨rfl, hjob⟩

/-- What comes of a choice: a seat that was free is taken, a job has been served, a request has reached the store, or
something has changed that touches neither the store nor the seats. -/
inductive Happens (x : System) : Choice → System → List Event → Prop where
  | spawned {p i : Nat} {round reply job} (free : x.seats p i = ⟨round, .ended reply⟩)
      (begins : isBeginning job = true) :
    Happens x (.spawn p i job) (x.setSeat p i ⟨round + 1, job⟩) []
  | acted {p i : Nat} {how : How} {s' : Seat} {y : System} {es : List Event}
      (serves : x.Serves p i (x.seats p i) ((x.seats p i).job.next (x.runtimes p).settings) s' y es) :
    Happens x (.act p i how) (y.setSeat p i s')
      (es ++ (credit? s'.job).toList.map fun c => .credited ⟨p, i, s'.round⟩ c.1 c.2)
  | landed {k a r} (drifts : x.drifting[k]? = some (a, r)) :
    Happens x (.land k) { x with store := (x.store.perform x.wall r).2, drifting := x.drifting.eraseIdx k }
      (landing x.store x.wall a r)
  | cancelled {p : Nat} : Happens x (.cancel p) (x.modify p fun r => { r with cancelled := true }) []
  | timed {wall} : Happens x (.setWall wall) { x with wall } []

theorem happens_of_step {c : Choice} (h : x.step c = some (y, es)) : Happens x c y es := by
  cases c with
  | spawn p i job =>
    simp only [step] at h
    split at h
    · rename_i round reply free
      split at h
      · rename_i begins
        cases h
        exact .spawned free begins
      · cases h
    · cases h
  | act p i how =>
    simp only [step, act, Option.map_eq_some_iff] at h
    obtain ⟨⟨s', z, es'⟩, hserve, hdone⟩ := h
    cases hdone
    exact .acted (serves_of_serve hserve)
  | land k =>
    simp only [step] at h
    split at h
    · rename_i a r drifts
      cases h
      exact .landed drifts
    · cases h
  | cancel p =>
    cases h
    exact .cancelled
  | setWall wall =>
    cases h
    exact .timed

/-- What holds of a system, and goes on to hold whatever is chosen, holds when many things have happened. -/
theorem run_induction {P : System → List Event → Prop} {cs : List Choice} {es' : List Event} (h : P x es)
    (hstep : ∀ c ∈ cs, ∀ x y es es', P x es → x.step c = some (y, es') → P y (es ++ es'))
    (hrun : x.run cs = some (y, es')) : P y (es ++ es') := by
  induction cs generalizing x es es' with
  | nil =>
    cases hrun
    rwa [List.append_nil]
  | cons c rest ih =>
    simp only [System.run, Option.bind_eq_bind, Option.bind_eq_some_iff] at hrun
    obtain ⟨⟨z, es₁⟩, hfirst, ⟨w, es₂⟩, hrest, hdone⟩ := hrun
    cases hdone
    rw [← List.append_assoc]
    exact ih (hstep c (by simp) _ _ _ _ h hfirst) (fun d hd => hstep d (by simp [hd])) hrest

/-- Many choices of a kind lead to something that can come of the system. -/
theorem Reaches.run {allowed : Choice → Prop} {x₀ : System} {es' : List Event} (h : Reaches allowed x₀ x es)
    {cs : List Choice} (ok : ∀ c ∈ cs, allowed c) (hrun : x.run cs = some (y, es')) :
    Reaches allowed x₀ y (es ++ es') :=
  run_induction h (fun c hc _ _ _ _ hreaches hstep => hreaches.step (ok c hc) hstep) hrun

end System

end Interleaving

end Backlog

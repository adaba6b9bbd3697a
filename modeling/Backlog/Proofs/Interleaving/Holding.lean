import Backlog.Proofs.Interleaving.System
import Backlog.Proofs.Store.Following

/-!
# What a job holds and what it asks for

A dispatcher holds the tasks that it has listed and has not dealt with.  Whatever it retires is among them, and they
come from the answers of the store alone.

Key facts: what a job holds stays good as long as the store shows good tasks (`held_next`), and the updates that a job
asks for are the claims and completions of workers and the retirements of tasks that it holds (`asks_next`), unless
somebody else makes the update.
-/

namespace Backlog

open Dispatch Simulation Store

/-! ### The tasks that are held -/

/-- The tasks that a pass of the reclaiming has listed and not dealt with. -/
def Dispatch.Reclaim.held : Reclaim → List Task
  | dating tasks => tasks
  | guarding _ task rest _ => task :: rest
  | checking _ task rest _ => task :: rest
  | retiring _ task rest _ _ => task :: rest
  | _ => []

/-- The tasks that a poll has listed and not dealt with. -/
def Dispatch.Poll.held : Poll → List Task
  | checking task rest _ => task :: rest
  | retiring task rest _ _ => task :: rest
  | enqueueing task rest _ _ => task :: rest
  | counting rest _ => rest
  | _ => []

namespace Interleaving

/-- The tasks that a job has listed and not dealt with. -/
def held : Job → List Task
  | .dispatcher (.reclaiming _ _ pass) => pass.held
  | .dispatcher (.polling _ poll) => poll.held
  | .poll poll => poll.held
  | .reclaim pass => pass.held
  | _ => []

/-- The answers of a store that shows good tasks only. -/
def ShowsOnly (good : Task → Prop) (r : Request) (result : Except StoreError r.Answer) : Prop :=
  ∀ a, result = .ok a → ∀ t ∈ r.tasks a, good t

variable {good came : Task → Prop}

private theorem reclaim_onward {now : Timestamp} {count : Nat} {rest : List Task} (h : ∀ t ∈ rest, good t) :
    ∀ t ∈ (Reclaim.onward now count rest).held, good t := by
  cases rest with
  | nil => exact fun t ht => by cases ht
  | cons task rest => exact h

private theorem reclaim_next (s : Settings) (threshold : Duration) {pass : Reclaim} (h : ∀ t ∈ pass.held, good t) :
    (pass.next s threshold).All (ShowsOnly good) came fun p => ∀ t ∈ p.held, good t := by
  cases pass with
  | listing =>
    refine ⟨fun y hy t ht => ?_, fun result hresult t ht => ?_⟩
    · cases hy
      cases ht
    · cases result with
      | ok tasks => exact hresult tasks rfl t ht
      | error e => cases ht
  | dating tasks => exact fun now => reclaim_onward h
  | guarding now task rest count =>
    intro cancelled
    cases cancelled with
    | true => exact fun t ht => by cases ht
    | false => exact h
  | checking now task rest count =>
    intro tracked
    dsimp only
    split
    · exact h
    · -- a task that is tracked or young is dropped
      exact reclaim_onward fun t ht => h t (List.mem_cons_of_mem _ ht)
  | retiring now task rest count stage =>
    refine Step.all_map.2 (Step.all_of_forall (fun stage' => ?_) _)
    cases stage' with
    | done moved => exact reclaim_onward fun t ht => h t (List.mem_cons_of_mem _ ht)
    | _ => exact h
  | done result => trivial

private theorem poll_onward {count : Nat} {rest : List Task} (h : ∀ t ∈ rest, good t) :
    ∀ t ∈ (Poll.onward count rest).held, good t := by
  cases rest with
  | nil => exact fun t ht => by cases ht
  | cons task rest => exact h

private theorem poll_next (s : Settings) {poll : Poll} (h : ∀ t ∈ poll.held, good t) :
    (poll.next s).All (ShowsOnly good) came fun p => ∀ t ∈ p.held, good t := by
  cases poll with
  | starting => exact fun t ht => by cases ht
  | listing =>
    refine ⟨fun y hy t ht => ?_, fun result hresult t ht => ?_⟩
    · cases hy
      cases ht
    · cases result with
      | ok tasks => exact poll_onward (hresult tasks rfl) t ht
      | error e => cases ht
  | failing e => exact fun t ht => by cases ht
  | checking task rest count =>
    intro tracked
    have hrest (t : Task) (ht : t ∈ rest) : good t := h t (List.mem_cons_of_mem _ ht)
    unfold Poll.afterCheck
    split
    · exact poll_onward hrest
    · split <;> exact h
  | retiring task rest count stage =>
    refine Step.all_map.2 (Step.all_of_forall (fun stage' => ?_) _)
    cases stage' with
    | done moved => exact poll_onward fun t ht => h t (List.mem_cons_of_mem _ ht)
    | _ => exact h
  | enqueueing task rest count stage =>
    refine Step.all_map.2 (Step.all_of_forall (fun stage' => ?_) _)
    cases stage' with
    | done sent =>
      cases sent with
      | true => exact fun t ht => h t (List.mem_cons_of_mem _ ht)
      | false => exact fun t ht => by cases ht
    | _ => exact h
  | counting rest count => exact poll_onward h
  | done result => trivial

private theorem dispatcher_next (s : Settings) {d : Dispatcher} (h : ∀ t ∈ held (.dispatcher d), good t) :
    (d.next s).All (ShowsOnly good) came fun d => ∀ t ∈ held (.dispatcher d), good t := by
  -- a pass or a poll that is over is held no longer
  cases d with
  | starting => exact fun t ht => by cases ht
  | timing => exact fun _ t ht => by cases ht
  | waiting first due =>
    refine ⟨fun y hy t ht => ?_, fun came t ht => ?_⟩
    · cases hy
      cases ht
    · cases ht
  | reclaiming due threshold pass =>
    refine Step.all_map.2 ((reclaim_next s threshold h).imp fun pass' h' => ?_)
    cases pass' with
    | done result => exact fun t ht => by cases ht
    | _ => exact h'
  | polling due poll =>
    refine Step.all_map.2 ((poll_next s h).imp fun poll' h' => ?_)
    cases poll' with
    | done result => exact fun t ht => by cases ht
    | _ => exact h'
  | stopping => exact fun t ht => by cases ht
  | stopped => trivial

/-- Whatever a job does, it holds good tasks only if it did and the store shows no others. -/
theorem held_next (s : Settings) {job : Job} (h : ∀ t ∈ held job, good t) :
    (job.next s).All (ShowsOnly good) came fun job' => ∀ t ∈ held job', good t := by
  cases job with
  | dispatcher d => exact Step.all_map.2 (dispatcher_next s h)
  | worker w => exact Step.all_map.2 (Step.all_of_forall (fun _ t ht => by cases ht) _)
  | poll poll => exact Step.all_map.2 (poll_next s h)
  | reclaim pass => exact Step.all_map.2 (reclaim_next s s.staleAfter h)
  | ask r limit => exact ⟨fun _ hy => (by cases hy), fun _ _ _ ht => (by cases ht)⟩
  | enqueue interruptible task stage => exact Step.all_map.2 (Step.all_of_forall (fun _ t ht => by cases ht) _)
  | receive => exact ⟨fun _ hy => (by cases hy), fun _ _ _ ht => (by cases ht)⟩
  | pause span => exact ⟨fun _ hy => (by cases hy), fun _ ht => (by cases ht)⟩
  | ended reply => trivial

/-! ### The requests that are made -/

/-- Where an update of a status comes from: a worker, the retirement of a task that is held, or somebody else. -/
def Asking (s : Settings) (job : Job) : Request → Prop
  | .updateStatus id u =>
    (u.status = .processing ∨ u.status = .completed) ∨
      (∃ t ∈ held job, id = t.id ∧ u = Retirement.update s t) ∨ ∃ limit, job = .ask (.updateStatus id u) limit
  | _ => True

section Parts

variable {s : Settings} {R : Request → Prop} {job : Job}

private theorem asks_retirement {task : Task} (retire : R (.updateStatus task.id (Retirement.update s task)))
    (stage : Retirement) : (stage.next s task).Asks R := by
  cases stage with
  | updating => exact retire
  | _ => trivial

private theorem asks_reclaim (threshold : Duration) (pass : Reclaim) (list : ∀ a, R (.listByStatus a))
    (retire : ∀ t ∈ pass.held, R (.updateStatus t.id (Retirement.update s t))) : (pass.next s threshold).Asks R := by
  cases pass with
  | listing => exact list .processing
  | retiring now task rest count stage =>
    exact Step.asks_map.2 (asks_retirement (retire task List.mem_cons_self) stage)
  | _ => trivial

private theorem asks_poll (poll : Poll) (list : ∀ a, R (.listByStatus a))
    (retire : ∀ t ∈ poll.held, R (.updateStatus t.id (Retirement.update s t))) : (poll.next s).Asks R := by
  cases poll with
  | listing => exact list .pending
  | retiring task rest count stage =>
    exact Step.asks_map.2 (asks_retirement (retire task List.mem_cons_self) stage)
  | enqueueing task rest count stage =>
    refine Step.asks_map.2 ?_
    cases stage <;> trivial
  | _ => trivial

/-- A worker whose claim is not over goes on with it. -/
theorem next_claiming (s : Settings) (task : Task) (start : Timestamp) {tr : Transition}
    (h : ∀ result, tr ≠ .done result) :
    (Worker.claiming task start tr).next s =
      (tr.next s task.id (Worker.claim task start)).map (.claiming task start) := by
  cases tr with
  | done result => exact absurd rfl (h result)
  | _ => rfl

/-- A worker whose completion is not over goes on with it. -/
theorem next_completing (s : Settings) (task : Task) (start finish : Timestamp) {tr : Transition}
    (h : ∀ result, tr ≠ .done result) :
    (Worker.completing task start finish tr).next s =
      (tr.next s task.id (Worker.completion task finish)).map (.completing task start finish) := by
  cases tr with
  | done result => exact absurd rfl (h result)
  | _ => rfl

private theorem asks_transition {id : Int} {u : StatusUpdate} (tr : Transition) (update : R (.updateStatus id u))
    (look : R (.getFresh id)) : (tr.next s id u).Asks R := by
  cases tr with
  | updating failures backoff => exact update
  | confirming e => exact look
  | _ => trivial

/-- A worker asks for its claim and its completion, and it looks at tasks. -/
theorem asks_worker {w : Worker} (look : ∀ id, R (.getFresh id))
    (claim : ∀ task start tr, w = .claiming task start tr → (∀ result, tr ≠ .done result) →
      R (.updateStatus task.id (Worker.claim task start)))
    (complete : ∀ task start finish tr, w = .completing task start finish tr →
      R (.updateStatus task.id (Worker.completion task finish))) : (w.next s).Asks R := by
  cases w with
  | claiming task start tr =>
    cases tr with
    | done result =>
      cases result with
      | ok a => trivial
      | error e =>
        simp only [Worker.next]
        split <;> trivial
    | _ =>
      rw [next_claiming s task start fun _ h => by cases h]
      exact Step.asks_map.2 (asks_transition _ (claim task start _ rfl fun _ h => by cases h) (look task.id))
  | completing task start finish tr =>
    cases tr with
    | done result => cases result <;> trivial
    | _ =>
      rw [next_completing s task start finish fun _ h => by cases h]
      exact Step.asks_map.2 (asks_transition _ (complete task start finish _ rfl) (look task.id))
  | _ => trivial

/-- A job asks for listings and for retirements of tasks that it holds, or what its worker asks for, or what it was told
to ask for. -/
theorem asks_of_parts (list : ∀ a, R (.listByStatus a))
    (retire : ∀ t ∈ held job, R (.updateStatus t.id (Retirement.update s t)))
    (worker : ∀ w, job = .worker w → (w.next s).Asks R) (told : ∀ r limit, job = .ask r limit → R r) :
    (job.next s).Asks R := by
  cases job with
  | dispatcher d =>
    refine Step.asks_map.2 ?_
    cases d with
    | reclaiming due threshold pass => exact Step.asks_map.2 (asks_reclaim threshold pass list retire)
    | polling due poll => exact Step.asks_map.2 (asks_poll poll list retire)
    | _ => trivial
  | worker w => exact Step.asks_map.2 (worker w rfl)
  | poll poll => exact Step.asks_map.2 (asks_poll poll list retire)
  | reclaim pass => exact Step.asks_map.2 (asks_reclaim s.staleAfter pass list retire)
  | ask r limit => exact told r limit rfl
  | enqueue interruptible task stage =>
    refine Step.asks_map.2 ?_
    cases stage <;> trivial
  | _ => trivial

end Parts

/-- Every update of a status is that of a worker, or retires a task that is held, or is made by somebody else. -/
theorem asks_next (s : Settings) (job : Job) : (job.next s).Asks (Asking s job) := by
  refine asks_of_parts (fun _ => trivial) (fun t ht => .inr (.inl ⟨t, ht, rfl, rfl⟩)) (fun w hw => ?_)
    fun r limit hr => ?_
  · exact asks_worker (fun _ => trivial) (fun _ _ _ _ _ => .inl (.inl rfl)) fun _ _ _ _ _ => .inl (.inr rfl)
  · cases r with
    | updateStatus id u => exact .inr (.inr ⟨limit, hr⟩)
    | _ => trivial

/-- Nobody comes to make a request of somebody else. -/
theorem not_ask_next (s : Settings) (job : Job) (answers : (r : Request) → Except StoreError r.Answer → Prop) :
    (job.next s).All answers came fun job' => ∀ r limit, job' ≠ .ask r limit := by
  cases job with
  | dispatcher d => exact Step.all_map.2 (Step.all_of_forall (fun _ _ _ h => by cases h) _)
  | worker w => exact Step.all_map.2 (Step.all_of_forall (fun _ _ _ h => by cases h) _)
  | poll poll => exact Step.all_map.2 (Step.all_of_forall (fun _ _ _ h => by cases h) _)
  | reclaim pass => exact Step.all_map.2 (Step.all_of_forall (fun _ _ _ h => by cases h) _)
  | ask r limit => exact ⟨fun _ hy => (by cases hy), fun _ _ _ _ h => (by cases h)⟩
  | enqueue interruptible task stage => exact Step.all_map.2 (Step.all_of_forall (fun _ _ _ h => by cases h) _)
  | receive => exact ⟨fun _ hy => (by cases hy), fun _ _ _ _ h => (by cases h)⟩
  | pause span => exact ⟨fun _ hy => (by cases hy), fun _ _ h => (by cases h)⟩
  | ended reply => trivial

end Interleaving

end Backlog

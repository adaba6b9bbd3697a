import Backlog.Proofs.Interleaving.Deeds
import Backlog.Proofs.Interleaving.Holding

/-!
# The stint of a worker

A worker looks at the wall clock twice for a task: before it claims the task, and when it has done the work and is about
to complete it.  In between it comes to take the claim for made, be it that the claim was acknowledged, or that the
stored task looks as the claim would have left it.

Key facts: whatever a worker does takes it from one stint to the next in one of a few ways (`Worker.turns_of_does`), the
only updates that it makes are the claim and the completion of its stint (`Worker.update_of_does`), and it looks at the
stored task only after an attempt to claim it has failed (`Worker.confirming_of_does`).
-/

namespace Backlog.Dispatch

open Store

/-- What a worker is about with a task. -/
inductive Stint where
  /-- It has not looked at the clock yet, or it is done with the task. -/
  | free
  /-- It claims the task, as one that is worked on from a moment on. -/
  | claiming (task : Task) (start : Timestamp)
  /-- It takes the claim for made. -/
  | working (task : Task) (start : Timestamp)
  /-- It completes the task, as one that was worked on up to a moment. -/
  | completing (task : Task) (finish : Timestamp)

namespace Stint

/-- The task of a stint that has begun and whose work is not over yet, and the moment at which the stint began. -/
def begun? : Stint → Option (Task × Timestamp)
  | claiming task start => some (task, start)
  | working task start => some (task, start)
  | _ => none

/-- The update that is made in a stint. -/
def update? : Stint → Option (Int × StatusUpdate)
  | claiming task start => some (task.id, Worker.claim task start)
  | completing task finish => some (task.id, Worker.completion task finish)
  | _ => none

/-- How a worker comes from one stint to the next: it looks at the clock and begins; its claim is acknowledged, or found
to have been made; it looks at the clock again and finishes; or it goes on as before or leaves the task alone. -/
inductive Turns : Stint → Deed → Stint → Prop where
  | begin {task : Task} (now : Timestamp) : Turns .free (.readWallClock now) (.claiming task now)
  | claim {task : Task} {start : Timestamp} :
    Turns (.claiming task start) (.ask (.updateStatus task.id (Worker.claim task start)) (.ok ())) (.working task start)
  | find {task t : Task} {start : Timestamp} (looks : Transition.looksApplied (Worker.claim task start) t = true) :
    Turns (.claiming task start) (.ask (.getFresh task.id) (.ok (some t))) (.working task start)
  | finish {task : Task} {start : Timestamp} (now : Timestamp) :
    Turns (.working task start) (.readWallClock now) (.completing task (Worker.finishOf start now))
  | stay (o : Stint) {deed : Deed} (noTake : deed.isTake = false) : Turns o deed o
  | leave (o : Stint) (deed : Deed) : Turns o deed .free

/-- Whoever has begun had begun before, or looks at the clock now. -/
theorem Turns.begun {o o' : Stint} {deed : Deed} (h : o.Turns deed o') {task : Task} {start : Timestamp}
    (hbegun : o'.begun? = some (task, start)) : o.begun? = some (task, start) ∨ deed = .readWallClock start := by
  cases h with
  | begin now =>
    cases hbegun
    exact .inr rfl
  | claim => exact .inl hbegun
  | find looks => exact .inl hbegun
  | finish now => cases hbegun
  | stay => exact .inl hbegun
  | leave => cases hbegun

end Stint

namespace Worker

/-- The stint of a worker. -/
def stint : Worker → Stint
  | claiming task start (.done (.ok ())) => .working task start
  | claiming task start _ => .claiming task start
  | announcing task start => .working task start
  | drawing task start => .working task start
  | working task start _ => .working task start
  | finishing task start => .working task start
  | completing task _ finish _ => .completing task finish
  | _ => .free

variable {s : Settings} {deed : Deed} {w w' : Worker}

/-- A worker holds the task of its stint. -/
theorem held?_of_begun? {task : Task} {start : Timestamp} (h : w.stint.begun? = some (task, start)) :
    w.held? = some task.id := by
  cases w with
  | claiming task start tr =>
    cases tr with
    | done result => cases result <;> cases h <;> rfl
    | _ =>
      cases h
      rfl
  | _ =>
    cases h <;> rfl

theorem turns_of_does (h : (w.next s).Does w deed w') : w.stint.Turns deed w'.stint := by
  cases w with
  | accepted task =>
    cases h with
    | readWallClock now => exact .begin now
  | claiming task start tr =>
    cases tr with
    | updating failures backoff =>
      cases h with
      | ask result =>
        cases result with
        | ok a => exact .claim
        | error e =>
          simp only [Transition.afterUpdate]
          split
          · exact .stay _ rfl
          · split <;> exact .stay _ rfl
      | drop hy => cases hy
    | pausing e failures backoff =>
      cases h with
      | rest => exact .stay _ rfl
      | rouse hy =>
        cases hy
        exact .stay _ rfl
    | confirming e =>
      cases h with
      | ask result =>
        cases result with
        | error e => exact .stay _ rfl
        | ok found =>
          cases found with
          | none => exact .stay _ rfl
          | some t =>
            simp only [Transition.afterLookup]
            split
            · rename_i looks
              exact .find looks
            · exact .stay _ rfl
      | drop hy => cases hy
    | done result =>
      cases result with
      | ok a =>
        cases h
        exact .stay _ rfl
      | error e =>
        simp only [next] at h
        split at h <;> cases h <;> exact .leave _ _
  | finishing task start =>
    cases h with
    | readWallClock now => exact .finish now
  | completing task start finish tr =>
    cases tr with
    | pausing e failures backoff =>
      cases h with
      | rest => exact .stay _ rfl
      | rouse hy =>
        cases hy
        exact .stay _ rfl
    | done result => cases result <;> cases h <;> exact .leave _ _
    | _ =>
      cases h with
      | ask result => exact .stay _ rfl
      | drop hy => cases hy
  | working task start span =>
    cases h with
    | rest => exact .stay _ rfl
    | rouse hy =>
      cases hy
      exact .leave _ _
  | idle =>
    cases h with
    | turnAway hy =>
      cases hy
      exact .stay _ rfl
    | queueUp => exact .stay _ rfl
    | take task => exact .leave _ _
  | stopped => cases h
  | _ =>
    cases h
    exact .stay _ rfl

/-- A worker that takes its claim for made looks at the clock when it has done the work. -/
theorem finishing_of_does {task : Task} {start now : Timestamp} (h : (w.next s).Does w (.readWallClock now) w')
    (hstint : w.stint = .working task start) : w = .finishing task start := by
  cases w with
  | finishing task start =>
    cases hstint
    rfl
  | claiming task start tr =>
    cases tr with
    | done result =>
      cases result with
      | ok a => cases h
      | error e => cases hstint
    | _ => cases hstint
  | announcing task start => cases h
  | drawing task start => cases h
  | working task start span => cases h
  | _ => cases hstint

/-- A worker that claims a task looks at it only to find out whether its claim was made. -/
theorem confirming_of_does {task : Task} {start : Timestamp} {id : Int} {result : Except StoreError (Option Task)}
    (h : (w.next s).Does w (.ask (.getFresh id) result) w') (hstint : w.stint = .claiming task start) :
    ∃ e, w = .claiming task start (.confirming e) := by
  cases w with
  | claiming task start tr =>
    cases tr with
    | confirming e =>
      cases hstint
      exact ⟨e, rfl⟩
    | updating failures backoff => cases h
    | pausing e failures backoff => cases h
    | done result =>
      cases result with
      | ok a => cases hstint
      | error e =>
        simp only [next] at h
        split at h <;> cases h
  | _ => cases hstint

/-- Every update that a worker asks for is that of its stint. -/
theorem update_of_does {id : Int} {u : StatusUpdate} (h : (w.next s).Does w deed w')
    (hdeed : (∃ result, deed = .ask (.updateStatus id u) result) ∨ deed = .drop (.updateStatus id u)) :
    w.stint.update? = some (id, u) := by
  have hasks : (w.next s).Asks fun r => ∀ id u, r = .updateStatus id u → w.stint.update? = some (id, u) := by
    refine Interleaving.asks_worker (fun id _ _ hr => by cases hr) ?_ ?_
    · rintro task start tr rfl running _ _ ⟨⟩
      cases tr with
      | done result => exact absurd rfl (running result)
      | _ => rfl
    · rintro task start finish tr rfl _ _ ⟨⟩
      rfl
  exact h.asks hasks hdeed id u rfl

end Worker

end Backlog.Dispatch

import Backlog.Proofs.Interleaving.Deeds
import Backlog.Proofs.Interleaving.Pursuit

/-!
# What the owner of a task is told

Whoever takes an update for done counts it and then tells the owner of the task about it.  A worker takes an update for
done that was acknowledged, or one that has failed if the stored task looks as the update would have left it; the
dispatcher takes the retirements for done that were acknowledged.

Key facts: what a job has still to count and to tell comes of one such update and ends with one notice
(`promise_turns`), and the notice is of the task and the status of the update (`promise_of_notify`).
-/

namespace Backlog

open Dispatch Simulation Store

/-- The status of whose changes something is counted. -/
def Dispatch.Count.status? : Count → Option Status
  | .claimed => some .processing
  | .completed => some .completed
  | .reclaimed => some .pending
  | .deadLettered => some .failed
  | _ => none

namespace Dispatch.Deed

/-- The status of whose changes a deed counts one. -/
def counted? : Deed → Option Status
  | record count => count.status?
  | _ => none

/-- The notice that a deed gives. -/
def notice? : Deed → Option StatusEvent
  | notify _ event => some event
  | _ => none

end Dispatch.Deed

/-- An update that is taken for done, and of which the owner of the task is to be told. -/
structure Promise where
  id : Int
  update : StatusUpdate
  /-- Whether it has been counted. -/
  isCounted : Bool

namespace Promise

/-- How a promise is made, counted and kept.  The update of which an attempt has failed is given. -/
inductive Turns (tried : Option (Int × StatusUpdate)) : Option Promise → Deed → Option Promise → Prop where
  | acknowledged {id u} : Turns tried none (.ask (.updateStatus id u) (.ok ())) (some ⟨id, u, false⟩)
  | found {id u t} (failed : tried = some (id, u)) (looks : Transition.looksApplied u t = true) :
    Turns tried none (.ask (.getFresh id) (.ok (some t))) (some ⟨id, u, false⟩)
  | counted {id u count} (status : count.status? = some u.status) :
    Turns tried (some ⟨id, u, false⟩) (.record count) (some ⟨id, u, true⟩)
  | told {id u userId event} (task : event.taskId = id) (status : event.status = u.status) :
    Turns tried (some ⟨id, u, true⟩) (.notify userId event) none
  | aside {o deed} (uncounted : deed.counted? = none) (untold : deed.notice? = none)
      (quiet : o = none ∨ deed.isCall = false ∧ deed.isTake = false) : Turns tried o deed o

end Promise

namespace Dispatch

/-- The update that a worker has tried in vain. -/
def Worker.tried? : Worker → Option (Int × StatusUpdate)
  | claiming task start stage => if stage.hasFailed then some (task.id, claim task start) else none
  | completing task _ finish stage => if stage.hasFailed then some (task.id, completion task finish) else none
  | _ => none

def Worker.promise? : Worker → Option Promise
  | claiming task start (.done (.ok ())) => some ⟨task.id, claim task start, false⟩
  | announcing task start => some ⟨task.id, claim task start, true⟩
  | completing task _ finish (.done (.ok ())) => some ⟨task.id, completion task finish, false⟩
  | counting task finish => some ⟨task.id, completion task finish, false⟩
  | closing task finish => some ⟨task.id, completion task finish, true⟩
  | _ => none

def Retirement.promise? (s : Settings) (task : Task) : Retirement → Option Promise
  | counting => some ⟨task.id, update s task, false⟩
  | dating => some ⟨task.id, update s task, true⟩
  | announcing _ => some ⟨task.id, update s task, true⟩
  | _ => none

def Reclaim.promise? (s : Settings) : Reclaim → Option Promise
  | retiring _ task _ _ stage => stage.promise? s task
  | _ => none

def Poll.promise? (s : Settings) : Poll → Option Promise
  | retiring task _ _ stage => stage.promise? s task
  | _ => none

def Dispatcher.promise? (s : Settings) : Dispatcher → Option Promise
  | reclaiming _ _ pass => pass.promise? s
  | polling _ poll => poll.promise? s
  | _ => none

variable {s : Settings} {deed : Deed}

/-! ### The dispatcher -/

private theorem Retirement.promises_of_does (tried : Option (Int × StatusUpdate)) {task : Task}
    {stage stage' : Retirement} (h : (stage.next s task).Does stage deed stage') :
    Promise.Turns tried (stage.promise? s task) deed (stage'.promise? s task) := by
  cases stage with
  | updating =>
    cases h with
    | ask result =>
      cases result with
      | ok a => exact .acknowledged
      | error e => exact .aside rfl rfl (.inl rfl)
    | drop hy => cases hy
  | counting =>
    cases h
    refine .counted ?_
    show (count s task).status? = some (target s task)
    unfold count target
    split <;> rfl
  | dating =>
    cases h
    exact .aside rfl rfl (.inr ⟨rfl, rfl⟩)
  | announcing now =>
    cases h
    exact .told rfl rfl
  | done moved => cases h

private theorem Reclaim.promise?_onward (now : Timestamp) (count : Nat) (rest : List Task) :
    (Reclaim.onward now count rest).promise? s = none := by
  cases rest <;> rfl

private theorem Reclaim.promises_of_does (tried : Option (Int × StatusUpdate)) {threshold : Duration}
    {pass pass' : Reclaim} (h : (pass.next s threshold).Does pass deed pass') :
    Promise.Turns tried (pass.promise? s) deed (pass'.promise? s) := by
  cases pass with
  | retiring now task rest count stage =>
    obtain ⟨stage', hdoes, rfl⟩ := does_retiring h
    have hturns := Retirement.promises_of_does tried hdoes
    cases stage' with
    | done moved =>
      show Promise.Turns tried _ deed ((Reclaim.onward _ _ _).promise? s)
      rw [promise?_onward]
      exact hturns
    | _ => exact hturns
  | listing =>
    cases h with
    | ask result => cases result <;> exact .aside rfl rfl (.inl rfl)
    | drop hy =>
      cases hy
      exact .aside rfl rfl (.inl rfl)
  | dating tasks =>
    cases h
    rw [promise?_onward]
    exact .aside rfl rfl (.inl rfl)
  | guarding now task rest count =>
    cases h with
    | see cancelled => cases cancelled <;> exact .aside rfl rfl (.inl rfl)
  | checking now task rest count =>
    cases h with
    | look tracked =>
      dsimp only
      split
      · exact .aside rfl rfl (.inl rfl)
      · rw [promise?_onward]
        exact .aside rfl rfl (.inl rfl)
  | done result => cases h

private theorem Poll.promise?_onward (count : Nat) (rest : List Task) : (Poll.onward count rest).promise? s = none := by
  cases rest <;> rfl

private theorem Poll.promises_of_does (tried : Option (Int × StatusUpdate)) {poll poll' : Poll}
    (h : (poll.next s).Does poll deed poll') :
    Promise.Turns tried (poll.promise? s) deed (poll'.promise? s) := by
  cases poll with
  | retiring task rest count stage =>
    obtain ⟨stage', hdoes, rfl⟩ := does_retiring h
    have hturns := Retirement.promises_of_does tried hdoes
    cases stage' with
    | done moved =>
      show Promise.Turns tried _ deed ((Poll.onward _ _).promise? s)
      rw [promise?_onward]
      exact hturns
    | _ => exact hturns
  | enqueueing task rest count stage =>
    obtain ⟨stage', hdoes, rfl⟩ := does_enqueueing h
    have hafter : (afterEnqueue task rest count stage').promise? s = none := by
      unfold afterEnqueue
      split <;> rfl
    rw [hafter]
    cases stage <;> cases hdoes <;> exact .aside rfl rfl (.inl rfl)
  | listing =>
    cases h with
    | ask result =>
      cases result with
      | ok tasks =>
        show Promise.Turns tried _ _ ((Poll.onward _ _).promise? s)
        rw [promise?_onward]
        exact .aside rfl rfl (.inl rfl)
      | error e => exact .aside rfl rfl (.inl rfl)
    | drop hy =>
      cases hy
      exact .aside rfl rfl (.inl rfl)
  | checking task rest count =>
    cases h with
    | look tracked =>
      unfold afterCheck
      split
      · rw [promise?_onward]
        exact .aside rfl rfl (.inl rfl)
      · split <;> exact .aside rfl rfl (.inl rfl)
  | counting rest count =>
    cases h
    rw [promise?_onward]
    exact .aside rfl rfl (.inl rfl)
  | starting =>
    cases h
    exact .aside rfl rfl (.inl rfl)
  | failing e =>
    cases h
    exact .aside rfl rfl (.inl rfl)
  | done result => cases h

private theorem Dispatcher.promises_of_does (tried : Option (Int × StatusUpdate)) {d d' : Dispatcher}
    (h : (d.next s).Does d deed d') :
    Promise.Turns tried (d.promise? s) deed (d'.promise? s) := by
  cases d with
  | reclaiming due threshold pass =>
    obtain ⟨pass', hdoes, rfl⟩ := does_reclaiming h
    have hturns := Reclaim.promises_of_does tried hdoes
    cases pass' <;> exact hturns
  | polling due poll =>
    obtain ⟨poll', hdoes, rfl⟩ := does_polling h
    have hturns := Poll.promises_of_does tried hdoes
    cases poll' <;> exact hturns
  | waiting first due =>
    cases h with
    | wake moment => exact .aside rfl rfl (.inl rfl)
    | rise hy =>
      cases hy
      exact .aside rfl rfl (.inl rfl)
  | stopped => cases h
  | _ =>
    cases h
    exact .aside rfl rfl (.inl rfl)

/-! ### The workers -/

/-- How a transition comes to have been tried in vain, or to be done. -/
private theorem Transition.turns {id : Int} {u : StatusUpdate} {tr tr' : Transition}
    (h : (tr.next s id u).Does tr deed tr') :
    (tr'.hasFailed = true → (∃ e, deed = .ask (.updateStatus id u) (.error e)) ∨
      tr.hasFailed = true ∧ deed.isCall = false ∧ deed.isTake = false) ∧
      (tr' = .done (.ok ()) → deed = .ask (.updateStatus id u) (.ok ()) ∨
        tr.hasFailed = true ∧ ∃ t, deed = .ask (.getFresh id) (.ok (some t)) ∧ looksApplied u t = true) ∧
      deed.counted? = none ∧ deed.notice? = none := by
  cases tr with
  | updating failures backoff =>
    cases h with
    | ask result =>
      refine ⟨fun hfailed => ?_, fun hdone => ?_, rfl, rfl⟩
      · cases result with
        | ok a => cases hfailed
        | error e => exact .inl ⟨e, rfl⟩
      · cases result with
        | ok a => exact .inl rfl
        | error e =>
          simp only [afterUpdate] at hdone
          split at hdone
          · cases hdone
          · split at hdone <;> cases hdone
    | drop hy => cases hy
  | pausing e failures backoff =>
    cases h with
    | rest => exact ⟨fun _ => .inr ⟨rfl, rfl, rfl⟩, nofun, rfl, rfl⟩
    | rouse hy =>
      cases hy
      exact ⟨nofun, nofun, rfl, rfl⟩
  | confirming e =>
    cases h with
    | ask result =>
      -- whatever is found, the transition is over
      have hover : (afterLookup u e result).hasFailed = false := by
        unfold afterLookup
        split
        · split <;> rfl
        · rfl
      refine ⟨fun hfailed => ?_, fun hdone => .inr ⟨rfl, ?_⟩, rfl, rfl⟩
      · rw [hover] at hfailed
        cases hfailed
      · unfold afterLookup at hdone
        split at hdone
        · split at hdone
          · exact ⟨_, rfl, by assumption⟩
          · cases hdone
        · cases hdone
    | drop hy => cases hy
  | done result => cases h

private theorem Worker.promise?_claiming {task : Task} {start : Timestamp} {tr : Transition}
    (h : tr ≠ .done (.ok ())) : (claiming task start tr).promise? = none := by
  cases tr with
  | done result =>
    cases result with
    | ok a => exact absurd rfl h
    | error e => rfl
  | _ => rfl

private theorem Worker.promise?_completing {task : Task} {start finish : Timestamp} {tr : Transition}
    (h : tr ≠ .done (.ok ())) : (completing task start finish tr).promise? = none := by
  cases tr with
  | done result =>
    cases result with
    | ok a => exact absurd rfl h
    | error e => rfl
  | _ => rfl

/-- A worker in a transition that is not over has promised nothing, and does so by taking its update for done. -/
private theorem Worker.turns_of_transition {w w' : Worker} {id : Int} {u : StatusUpdate} {tr tr' : Transition}
    (h : (tr.next s id u).Does tr deed tr') (tried : w.tried? = if tr.hasFailed then some (id, u) else none)
    (before : w.promise? = none) (made : tr' = .done (.ok ()) → w'.promise? = some ⟨id, u, false⟩)
    (open_ : tr' ≠ .done (.ok ()) → w'.promise? = none) :
    Promise.Turns w.tried? w.promise? deed w'.promise? := by
  obtain ⟨-, hdone, huncounted, huntold⟩ := Transition.turns h
  rw [before]
  by_cases hover : tr' = .done (.ok ())
  · rw [made hover]
    rcases hdone hover with rfl | ⟨hfailed, t, rfl, hlooks⟩
    · exact .acknowledged
    · refine .found ?_ hlooks
      rw [tried, if_pos hfailed]
  · rw [open_ hover]
    exact .aside huncounted huntold (.inl rfl)

private theorem Worker.promises_of_does {w w' : Worker} (h : (w.next s).Does w deed w') :
    Promise.Turns w.tried? w.promise? deed w'.promise? := by
  cases w with
  | claiming task start tr =>
    by_cases hover : ∃ result, tr = .done result
    · obtain ⟨result, rfl⟩ := hover
      cases result with
      | ok a =>
        cases h
        exact .counted rfl
      | error e =>
        simp only [Worker.next] at h
        split at h <;> cases h <;> exact .aside rfl rfl (.inl rfl)
    · have running : ∀ result, tr ≠ .done result := fun result hdone => hover ⟨result, hdone⟩
      rw [Interleaving.next_claiming s task start running] at h
      obtain ⟨tr', hdoes, rfl⟩ := Step.Does.of_map (f := claiming task start) h
      refine turns_of_transition hdoes rfl (promise?_claiming (running _)) ?_ promise?_claiming
      rintro rfl
      rfl
  | completing task start finish tr =>
    by_cases hover : ∃ result, tr = .done result
    · obtain ⟨result, rfl⟩ := hover
      cases result with
      | ok a =>
        cases h
        exact .aside rfl rfl (.inr ⟨rfl, rfl⟩)
      | error e =>
        cases h
        exact .aside rfl rfl (.inl rfl)
    · have running : ∀ result, tr ≠ .done result := fun result hdone => hover ⟨result, hdone⟩
      rw [Interleaving.next_completing s task start finish running] at h
      obtain ⟨tr', hdoes, rfl⟩ := Step.Does.of_map (f := completing task start finish) h
      refine turns_of_transition hdoes rfl (promise?_completing (running _)) ?_ promise?_completing
      rintro rfl
      rfl
  | announcing task start =>
    cases h
    exact .told rfl rfl
  | counting task finish =>
    cases h
    exact .counted rfl
  | closing task finish =>
    cases h
    exact .told rfl rfl
  | idle =>
    cases h with
    | queueUp => exact .aside rfl rfl (.inl rfl)
    | take task => exact .aside rfl rfl (.inl rfl)
    | turnAway hy =>
      cases hy
      exact .aside rfl rfl (.inl rfl)
  | working task start span =>
    cases h with
    | rest => exact .aside rfl rfl (.inl rfl)
    | rouse hy =>
      cases hy
      exact .aside rfl rfl (.inl rfl)
  | stopped => cases h
  | _ =>
    cases h
    exact .aside rfl rfl (.inl rfl)

/-- What a worker has tried in vain it has just tried, or it had tried it before and has done nothing since. -/
private theorem Worker.tried_of_does {w w' : Worker} {id : Int} {u : StatusUpdate} (h : (w.next s).Does w deed w')
    (htried : w'.tried? = some (id, u)) : (∃ e, deed = .ask (.updateStatus id u) (.error e)) ∨
      w.tried? = some (id, u) ∧ deed.isCall = false ∧ deed.isTake = false := by
  -- a transition is the only part that can have been tried in vain
  have pursued {tr tr' : Transition} {id' : Int} {u' : StatusUpdate} (hdoes : (tr.next s id' u').Does tr deed tr')
      (hbefore : w.tried? = if tr.hasFailed then some (id', u') else none)
      (hafter : (if tr'.hasFailed then some (id', u') else none) = some (id, u)) :
      (∃ e, deed = .ask (.updateStatus id u) (.error e)) ∨
        w.tried? = some (id, u) ∧ deed.isCall = false ∧ deed.isTake = false := by
    split at hafter
    · rename_i hfailed
      cases hafter
      rcases (Transition.turns hdoes).1 hfailed with hnow | ⟨hearlier, hquiet⟩
      · exact .inl hnow
      · exact .inr ⟨by rw [hbefore, if_pos hearlier], hquiet⟩
    · cases hafter
  cases w with
  | claiming task start tr =>
    by_cases hover : ∃ result, tr = .done result
    · obtain ⟨result, rfl⟩ := hover
      cases result with
      | ok a =>
        cases h
        cases htried
      | error e =>
        simp only [Worker.next] at h
        split at h <;> cases h <;> cases htried
    · have running : ∀ result, tr ≠ .done result := fun result hdone => hover ⟨result, hdone⟩
      rw [Interleaving.next_claiming s task start running] at h
      obtain ⟨tr', hdoes, rfl⟩ := Step.Does.of_map (f := claiming task start) h
      exact pursued hdoes rfl htried
  | completing task start finish tr =>
    by_cases hover : ∃ result, tr = .done result
    · obtain ⟨result, rfl⟩ := hover
      cases result <;> cases h <;> cases htried
    · have running : ∀ result, tr ≠ .done result := fun result hdone => hover ⟨result, hdone⟩
      rw [Interleaving.next_completing s task start finish running] at h
      obtain ⟨tr', hdoes, rfl⟩ := Step.Does.of_map (f := completing task start finish) h
      exact pursued hdoes rfl htried
  | idle =>
    cases h with
    | turnAway hy =>
      cases hy
      cases htried
    | _ => cases htried
  | working task start span =>
    cases h with
    | rest => cases htried
    | rouse hy =>
      cases hy
      cases htried
  | stopped => cases h
  | _ =>
    cases h
    cases htried

end Dispatch

namespace Interleaving

variable {s : Settings} {deed : Deed} {job job' : Job}

/-- The update that a job has tried in vain. -/
def tried? : Job → Option (Int × StatusUpdate)
  | .worker w => w.tried?
  | _ => none

/-- What a job has still to count or to tell. -/
def promise? (s : Settings) : Job → Option Promise
  | .dispatcher d => d.promise? s
  | .worker w => w.promise?
  | .poll poll => poll.promise? s
  | .reclaim pass => pass.promise? s
  | _ => none

/-- Whatever a job does, it makes, counts or keeps a promise, or has nothing to do with one. -/
theorem promise_turns (h : (job.next s).Does job deed job') :
    Promise.Turns (tried? job) (promise? s job) deed (promise? s job') := by
  cases job with
  | dispatcher d =>
    obtain ⟨d', hdoes, rfl⟩ := Step.Does.of_map h
    exact Dispatcher.promises_of_does _ hdoes
  | worker w =>
    obtain ⟨w', hdoes, rfl⟩ := Step.Does.of_map h
    exact Worker.promises_of_does hdoes
  | poll poll =>
    obtain ⟨poll', hdoes, rfl⟩ := Step.Does.of_map h
    exact Poll.promises_of_does _ hdoes
  | reclaim pass =>
    obtain ⟨pass', hdoes, rfl⟩ := Step.Does.of_map h
    exact Reclaim.promises_of_does _ hdoes
  | enqueue interruptible task stage =>
    obtain ⟨stage', hdoes, rfl⟩ := Step.Does.of_map h
    cases stage <;> cases hdoes <;> exact .aside rfl rfl (.inl rfl)
  | ask r limit =>
    cases h with
    | ask result => exact .aside rfl rfl (.inl rfl)
    | drop hy => cases hy
  | receive =>
    cases h with
    | queueUp => exact .aside rfl rfl (.inl rfl)
    | take task => exact .aside rfl rfl (.inl rfl)
    | turnAway hy => cases hy
  | pause span =>
    cases h with
    | rest => exact .aside rfl rfl (.inl rfl)
    | rouse hy => cases hy
  | ended reply => cases h

/-- What a job has tried in vain it has just tried, or it had tried it before and has done nothing since. -/
theorem tried_of_does {id : Int} {u : StatusUpdate} (h : (job.next s).Does job deed job')
    (htried : tried? job' = some (id, u)) : (∃ e, deed = .ask (.updateStatus id u) (.error e)) ∨
      tried? job = some (id, u) ∧ deed.isCall = false ∧ deed.isTake = false := by
  cases job with
  | worker w =>
    obtain ⟨w', hdoes, rfl⟩ := Step.Does.of_map h
    exact Worker.tried_of_does hdoes htried
  | ask r limit =>
    cases h with
    | ask result => cases htried
    | drop hy => cases hy
  | receive =>
    cases h with
    | turnAway hy => cases hy
    | _ => cases htried
  | pause span =>
    cases h with
    | rest => cases htried
    | rouse hy => cases hy
  | ended reply => cases h
  | _ =>
    obtain ⟨part, -, rfl⟩ := Step.Does.of_map h
    cases htried

/-- Only a worker tries an update in vain, and a worker moves tasks to processing and to completed. -/
theorem status_of_tried {c : Int × StatusUpdate} (h : tried? job = some c) :
    c.2.status = .processing ∨ c.2.status = .completed := by
  cases job with
  | worker w =>
    cases w with
    | claiming task start tr =>
      cases (Option.ite_none_right_eq_some.1 h).2
      exact .inl rfl
    | completing task start finish tr =>
      cases (Option.ite_none_right_eq_some.1 h).2
      exact .inr rfl
    | _ => cases h
  | _ => cases h

/-- A notice is of the task and the status of an update that has been counted. -/
theorem promise_of_notify {userId : String} {event : StatusEvent} {next : Job}
    (h : job.next s = .notify userId event next) :
    ∃ u, promise? s job = some ⟨event.taskId, u, true⟩ ∧ event.status = u.status := by
  have hdoes : (job.next s).Does job (.notify userId event) next := by
    rw [h]
    exact .notify
  have hturns := promise_turns hdoes
  generalize promise? s job = o, promise? s next = o' at hturns
  cases hturns with
  | told task status => exact ⟨_, by rw [task], status⟩
  | aside uncounted untold quiet => cases untold

private theorem expects_retirement {task : Task} {stage : Retirement} {d : Promise}
    (h : stage.promise? s task = some d) : ∃ version, d.update.expectedVersion = some version := by
  cases stage <;> cases h <;> exact ⟨_, rfl⟩

/-- Every promise is of an update that expects a version. -/
theorem expects_of_promise {d : Promise} (h : promise? s job = some d) :
    ∃ version, d.update.expectedVersion = some version := by
  have reclaim {pass : Reclaim} (hpass : pass.promise? s = some d) :
      ∃ version, d.update.expectedVersion = some version := by
    cases pass with
    | retiring now task rest count stage => exact expects_retirement hpass
    | _ => cases hpass
  have poll {poll : Poll} (hpoll : poll.promise? s = some d) :
      ∃ version, d.update.expectedVersion = some version := by
    cases poll with
    | retiring task rest count stage => exact expects_retirement hpoll
    | _ => cases hpoll
  cases job with
  | dispatcher d =>
    cases d with
    | reclaiming due threshold pass => exact reclaim h
    | polling due part => exact poll h
    | _ => cases h
  | poll part => exact poll h
  | reclaim pass => exact reclaim h
  | worker w =>
    simp only [promise?, Worker.promise?] at h
    split at h <;> cases h <;> exact ⟨_, rfl⟩
  | _ => cases h

theorem promise?_of_isBeginning (h : isBeginning job = true) : promise? s job = none := by
  cases job with
  | worker w => cases w <;> first | rfl | cases h
  | dispatcher d => cases d <;> first | rfl | cases h
  | poll poll => cases poll <;> first | rfl | cases h
  | reclaim pass => cases pass <;> first | rfl | cases h
  | _ => rfl

end Interleaving

end Backlog

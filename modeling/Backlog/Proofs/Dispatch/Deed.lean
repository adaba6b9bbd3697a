import Backlog.Dispatch.Dispatcher
import Backlog.Queue

/-!
# Deeds

A machine says what its next step asks for, and a deed says what came of it: what the machine has asked and learnt, or
that it has come to the channel, put a task into it, or given up because its token has fired.  The store and the clocks
may answer anything; what a queue answers and what becomes of it is told by the deed and by the ticket under which the
machine comes to the channel.

Key facts: what a machine does is what its part does (`Step.Does.of_map`), and a deed in keeping with the queue leaves
the channel in order and as large as it was (`Deed.Fits.channel`, `Deed.capacity_onQueue`).
-/

namespace Backlog

/-! ### The channel and the register -/

namespace Channel

theorem items_passOn (c : Channel) : c.passOn.items = c.items := by
  unfold passOn
  split <;> rfl

theorem capacity_passOn (c : Channel) : c.passOn.capacity = c.capacity := by
  unfold passOn
  split <;> rfl

theorem receivers_passOn (c : Channel) : c.passOn.receivers = c.receivers := by
  unfold passOn
  split <;> rfl

/-- A place that is passed on goes to one who was next in line for it. -/
theorem line_passOn (c : Channel) : c.passOn.granted ++ c.passOn.senders = c.granted ++ c.senders := by
  unfold passOn
  split
  · rfl
  · rename_i first rest hsenders
    rw [hsenders, List.append_assoc, List.singleton_append]

theorem items_join (c : Channel) (t : Ticket) : (c.join t).items = c.items := by
  unfold join
  split <;> rfl

theorem capacity_join (c : Channel) (t : Ticket) : (c.join t).capacity = c.capacity := by
  unfold join
  split <;> rfl

theorem items_leave (c : Channel) (t : Ticket) : (c.leave t).items = c.items := by
  unfold leave
  split
  · exact items_passOn _
  · rfl

theorem capacity_leave (c : Channel) (t : Ticket) : (c.leave t).capacity = c.capacity := by
  unfold leave
  split
  · exact capacity_passOn _
  · rfl

/-- Whoever takes a task takes the oldest one, and the channel stays as large and in order. -/
theorem takeFor_spec {c c' : Channel} {t : Ticket} {task : Task} (h : c.takeFor t = some (task, c')) :
    c.items = task :: c'.items ∧ c'.capacity = c.capacity ∧ (c.Fits → c'.Fits) := by
  unfold takeFor at h
  split at h
  · refine ⟨?_, ?_, fun hfits => fits_take (c := { c with receivers := c.receivers.tail }) ⟨hfits.1, hfits.2⟩ h⟩
    all_goals
      unfold take at h
      split at h
      · cases h
      · rename_i hitems
        cases h
        first
          | (rw [items_passOn]; exact hitems)
          | (rw [capacity_passOn])
  · cases h

end Channel

namespace Queue

/-- The identifiers of the tasks in the register. -/
def ids (q : Queue) : List Int := q.entries.map fun e => e.task.id

theorem contains_iff_mem_ids (q : Queue) (id : Int) : q.contains id = true ↔ id ∈ q.ids := by
  unfold contains ids
  simp only [List.any_eq_true, decide_eq_true_eq, List.mem_map]

theorem contains_of_entries_eq_nil {q : Queue} (h : q.entries = []) (id : Int) : q.contains id = false := by
  unfold contains
  rw [h]
  rfl

theorem ids_untrack (q : Queue) (id : Int) : (q.untrack id).2.ids = q.ids.filter (· ≠ id) := by
  unfold ids untrack
  rw [List.filter_map]
  rfl

theorem ids_track (q : Queue) (now : Timestamp) (task : Task) :
    (q.track now task).ids = q.ids.filter (· ≠ task.id) ++ [task.id] := by
  unfold ids track
  rw [List.map_append, List.filter_map]
  rfl

end Queue

namespace Dispatch

open Store

/-- What a machine has done in a step, and what it has learnt. -/
inductive Deed where
  /-- It has asked the store and has got an answer or an error. -/
  | ask (request : Request) (result : Except StoreError request.Answer)
  /-- It has given up a request. -/
  | drop (request : Request)
  /-- It has asked whether the queue tracks a task. -/
  | look (id : Int) (tracked : Bool)
  | track (now : Timestamp) (task : Task)
  | untrack (id : Int) (tracked : Bool)
  /-- It has come to the channel to send a task. -/
  | join
  | send (task : Task)
  /-- It has given up sending. -/
  | leave
  /-- It has come to the channel to receive a task. -/
  | queueUp
  | take (task : Task)
  /-- It has given up receiving. -/
  | turnAway
  /-- It has slept to the end of a span or to a moment. -/
  | rest
  | wake (moment : Instant)
  /-- It has given up sleeping. -/
  | rouse
  | readClock (moment : Instant)
  | readWallClock (now : Timestamp)
  /-- It has asked whether its token has fired. -/
  | see (cancelled : Bool)
  | draw (n : Nat)
  | record (count : Count)
  | notify (userId : String) (event : StatusEvent)
  | showRunning (running : Bool)

/-- A machine in a state, whose next step is given, does a deed and comes to another state.  Whoever comes to the
channel stays where it waits. -/
inductive Step.Does {σ : Type} (x : σ) : Step σ → Deed → σ → Prop where
  | ask {r limit interrupted next} (result : Except StoreError r.Answer) :
    Does x (.call r limit interrupted next) (.ask r result) (next result)
  | drop {r limit interrupted next y} (h : interrupted = some y) :
    Does x (.call r limit interrupted next) (.drop r) y
  | look {id next} (tracked : Bool) : Does x (.isTracked id next) (.look id tracked) (next tracked)
  | track {task next} (now : Timestamp) : Does x (.track task next) (.track now task) next
  | untrack {id next} (tracked : Bool) : Does x (.untrack id next) (.untrack id tracked) (next tracked)
  | join {task interrupted next} : Does x (.send task interrupted next) .join x
  | send {task interrupted next} : Does x (.send task interrupted next) (.send task) next
  | leave {task interrupted next y} (h : interrupted = some y) : Does x (.send task interrupted next) .leave y
  | queueUp {interrupted next} : Does x (.receive interrupted next) .queueUp x
  | take {interrupted next} (task : Task) : Does x (.receive interrupted next) (.take task) (next task)
  | turnAway {interrupted next y} (h : interrupted = some y) : Does x (.receive interrupted next) .turnAway y
  | rest {span interrupted next} : Does x (.sleep span interrupted next) .rest next
  | rouse {span interrupted next y} (h : interrupted = some y) : Does x (.sleep span interrupted next) .rouse y
  | wake {due interrupted next} (moment : Instant) :
    Does x (.sleepUntil due interrupted next) (.wake moment) (next moment)
  | rise {due interrupted next y} (h : interrupted = some y) : Does x (.sleepUntil due interrupted next) .rouse y
  | readClock {next} (moment : Instant) : Does x (.readClock next) (.readClock moment) (next moment)
  | readWallClock {next} (now : Timestamp) : Does x (.readWallClock next) (.readWallClock now) (next now)
  | see {next} (cancelled : Bool) : Does x (.isCancelled next) (.see cancelled) (next cancelled)
  | draw {least most next} (n : Nat) : Does x (.draw least most next) (.draw n) (next n)
  | record {count next} : Does x (.record count next) (.record count) next
  | notify {userId event next} : Does x (.notify userId event next) (.notify userId event) next
  | showRunning {running next} : Does x (.showRunning running next) (.showRunning running) next

/-- What a machine does that is made from another is what that one does. -/
theorem Step.Does.of_map {σ τ : Type} {f : σ → τ} {st : Step σ} {x : σ} {deed : Deed} {y : τ}
    (h : (st.map f).Does (f x) deed y) : ∃ z, st.Does x deed z ∧ y = f z := by
  have interrupted {o : Option σ} (ho : o.map f = some y) : ∃ z, o = some z ∧ y = f z := by
    obtain ⟨z, hz, hy⟩ := Option.map_eq_some_iff.1 ho
    exact ⟨z, hz, hy.symm⟩
  cases st with
  | stop => cases h
  | call r limit o next =>
    cases h with
    | ask result => exact ⟨_, .ask result, rfl⟩
    | drop ho =>
      obtain ⟨z, hz, hy⟩ := interrupted ho
      exact ⟨z, .drop hz, hy⟩
  | isTracked id next =>
    cases h with
    | look tracked => exact ⟨_, .look tracked, rfl⟩
  | track task next =>
    cases h with
    | track now => exact ⟨_, .track now, rfl⟩
  | untrack id next =>
    cases h with
    | untrack tracked => exact ⟨_, .untrack tracked, rfl⟩
  | send task o next =>
    cases h with
    | join => exact ⟨_, .join, rfl⟩
    | send => exact ⟨_, .send, rfl⟩
    | leave ho =>
      obtain ⟨z, hz, hy⟩ := interrupted ho
      exact ⟨z, .leave hz, hy⟩
  | receive o next =>
    cases h with
    | queueUp => exact ⟨_, .queueUp, rfl⟩
    | take task => exact ⟨_, .take task, rfl⟩
    | turnAway ho =>
      obtain ⟨z, hz, hy⟩ := interrupted ho
      exact ⟨z, .turnAway hz, hy⟩
  | sleep span o next =>
    cases h with
    | rest => exact ⟨_, .rest, rfl⟩
    | rouse ho =>
      obtain ⟨z, hz, hy⟩ := interrupted ho
      exact ⟨z, .rouse hz, hy⟩
  | sleepUntil due o next =>
    cases h with
    | wake moment => exact ⟨_, .wake moment, rfl⟩
    | rise ho =>
      obtain ⟨z, hz, hy⟩ := interrupted ho
      exact ⟨z, .rise hz, hy⟩
  | readClock next =>
    cases h with
    | readClock moment => exact ⟨_, .readClock moment, rfl⟩
  | readWallClock next =>
    cases h with
    | readWallClock now => exact ⟨_, .readWallClock now, rfl⟩
  | isCancelled next =>
    cases h with
    | see cancelled => exact ⟨_, .see cancelled, rfl⟩
  | draw least most next =>
    cases h with
    | draw n => exact ⟨_, .draw n, rfl⟩
  | record count next =>
    cases h with
    | record => exact ⟨_, .record, rfl⟩
  | notify userId event next =>
    cases h with
    | notify => exact ⟨_, .notify, rfl⟩
  | showRunning running next =>
    cases h with
    | showRunning => exact ⟨_, .showRunning, rfl⟩

theorem Step.Does.map {σ τ : Type} (f : σ → τ) {st : Step σ} {x y : σ} {deed : Deed} (h : st.Does x deed y) :
    (st.map f).Does (f x) deed (f y) := by
  cases h with
  | ask result => exact .ask result
  | drop ho => exact .drop (by rw [ho, Option.map_some])
  | look tracked => exact .look tracked
  | track now => exact .track now
  | untrack tracked => exact .untrack tracked
  | join => exact .join
  | send => exact .send
  | leave ho => exact .leave (by rw [ho, Option.map_some])
  | queueUp => exact .queueUp
  | take task => exact .take task
  | turnAway ho => exact .turnAway (by rw [ho, Option.map_some])
  | rest => exact .rest
  | rouse ho => exact .rouse (by rw [ho, Option.map_some])
  | wake moment => exact .wake moment
  | rise ho => exact .rise (by rw [ho, Option.map_some])
  | readClock moment => exact .readClock moment
  | readWallClock now => exact .readWallClock now
  | see cancelled => exact .see cancelled
  | draw n => exact .draw n
  | record => exact .record
  | notify => exact .notify
  | showRunning => exact .showRunning

/-! ### What the dispatcher does is what its part does -/

variable {s : Settings} {deed : Deed}

theorem Reclaim.does_retiring {threshold : Duration} {now : Timestamp} {task : Task} {rest : List Task} {count : Nat}
    {stage : Retirement} {pass : Reclaim}
    (h : ((retiring now task rest count stage).next s threshold).Does (retiring now task rest count stage) deed pass) :
    ∃ stage', (stage.next s task).Does stage deed stage' ∧ pass = afterRetirement now task rest count stage' := by
  cases stage with
  | done moved => cases h
  | _ => exact Step.Does.of_map (f := afterRetirement now task rest count) h

theorem Poll.does_retiring {task : Task} {rest : List Task} {count : Nat} {stage : Retirement} {poll : Poll}
    (h : ((retiring task rest count stage).next s).Does (retiring task rest count stage) deed poll) :
    ∃ stage', (stage.next s task).Does stage deed stage' ∧ poll = afterRetirement task rest count stage' := by
  cases stage with
  | done moved => cases h
  | _ => exact Step.Does.of_map (f := afterRetirement task rest count) h

theorem Poll.does_enqueueing {task : Task} {rest : List Task} {count : Nat} {stage : Enqueue} {poll : Poll}
    (h : ((enqueueing task rest count stage).next s).Does (enqueueing task rest count stage) deed poll) :
    ∃ stage', (stage.next true task).Does stage deed stage' ∧ poll = afterEnqueue task rest count stage' := by
  cases stage with
  | done sent => cases h
  | _ => exact Step.Does.of_map (f := afterEnqueue task rest count) h

theorem Dispatcher.does_reclaiming {due : Instant} {threshold : Duration} {pass : Reclaim} {d : Dispatcher}
    (h : ((reclaiming due threshold pass).next s).Does (reclaiming due threshold pass) deed d) :
    ∃ pass', (pass.next s threshold).Does pass deed pass' ∧ d = afterReclaim due threshold pass' := by
  cases pass with
  | done result => cases h
  | _ => exact Step.Does.of_map (f := afterReclaim due threshold) h

theorem Dispatcher.does_polling {due : Instant} {poll : Poll} {d : Dispatcher}
    (h : ((polling due poll).next s).Does (polling due poll) deed d) :
    ∃ poll', (poll.next s).Does poll deed poll' ∧ d = afterPoll due poll' := by
  cases poll with
  | done result => cases h
  | _ => exact Step.Does.of_map (f := afterPoll due) h

theorem Dispatcher.Does.of_reclaiming {threshold : Duration} {pass pass' : Reclaim} (due : Instant)
    (h : (pass.next s threshold).Does pass deed pass') (goesOn : ∀ result, pass ≠ .done result) :
    ((reclaiming due threshold pass).next s).Does (reclaiming due threshold pass) deed
      (afterReclaim due threshold pass') := by
  have hmap := h.map (afterReclaim due threshold)
  cases pass with
  | done result => exact absurd rfl (goesOn result)
  | _ => exact hmap

theorem Dispatcher.Does.of_polling {poll poll' : Poll} (due : Instant) (h : (poll.next s).Does poll deed poll')
    (goesOn : ∀ result, poll ≠ .done result) :
    ((polling due poll).next s).Does (polling due poll) deed (afterPoll due poll') := by
  have hmap := h.map (afterPoll due)
  cases poll with
  | done result => exact absurd rfl (goesOn result)
  | _ => exact hmap

/-! ### Deeds and the queue -/

namespace Deed

/-- Whether a deed leaves the queue as it is. -/
def isAside : Deed → Bool
  | track _ _ => false
  | untrack _ _ => false
  | join => false
  | send _ => false
  | leave => false
  | queueUp => false
  | take _ => false
  | turnAway => false
  | _ => true

/-- Whether a deed has to do with the line of receivers. -/
def isReceipt : Deed → Bool
  | queueUp => true
  | take _ => true
  | turnAway => true
  | _ => false

/-- The task that a deed takes out of the channel. -/
def taken? : Deed → Option Task
  | take task => some task
  | _ => none

/-- Whoever has a ticket can do the deed: the queue is as the deed says, and the token has fired if something was given
up. -/
def Fits (t : Ticket) (cancelled : Bool) (q : Queue) : Deed → Prop
  | drop _ => cancelled = true
  | leave => cancelled = true
  | turnAway => cancelled = true
  | rouse => cancelled = true
  | see b => b = cancelled
  | look id tracked => tracked = q.contains id
  | untrack id tracked => tracked = q.contains id
  | join => q.channel.maySend t = false ∧ t ∉ q.channel.senders
  | send _ => q.channel.maySend t = true
  | queueUp => t ∉ q.channel.receivers
  | take task => (q.channel.takeFor t).map Prod.fst = some task
  | _ => True

/-- The queue after a deed of whoever has a ticket. -/
def onQueue (t : Ticket) (q : Queue) : Deed → Queue
  | track now task => q.track now task
  | untrack id _ => (q.untrack id).2
  | join => { q with channel := q.channel.join t }
  | send task => { q with channel := q.channel.send t task }
  | leave => { q with channel := q.channel.leave t }
  | queueUp => { q with channel := q.channel.queueUp t }
  | take _ => { q with channel := ((q.channel.takeFor t).map Prod.snd).getD q.channel }
  | turnAway => { q with channel := q.channel.turnAway t }
  | _ => q

/-- The counters after a deed. -/
def onTally (t : Tally) : Deed → Tally
  | record count => t.record count
  | _ => t

variable {t : Ticket} {cancelled : Bool} {q : Queue} {deed : Deed}

theorem onQueue_of_isAside (h : deed.isAside = true) (t : Ticket) (q : Queue) : deed.onQueue t q = q := by
  cases deed <;> first
    | rfl
    | cases h

theorem Fits.exists_takeFor {task : Task} (h : (take task).Fits t cancelled q) :
    ∃ c, q.channel.takeFor t = some (task, c) ∧ (take task).onQueue t q = { q with channel := c } := by
  obtain ⟨⟨task', c⟩, hc, rfl⟩ := Option.map_eq_some_iff.1 h
  refine ⟨c, hc, ?_⟩
  unfold onQueue
  rw [hc]
  rfl

theorem capacity_onQueue (deed : Deed) (t : Ticket) (q : Queue) :
    (deed.onQueue t q).channel.capacity = q.channel.capacity := by
  cases deed with
  | join => exact Channel.capacity_join _ _
  | leave => exact Channel.capacity_leave _ _
  | take task =>
    show (((q.channel.takeFor t).map Prod.snd).getD q.channel).capacity = _
    cases hc : q.channel.takeFor t with
    | none => rfl
    | some r => exact (Channel.takeFor_spec hc).2.1
  | _ => rfl

/-- The queue does not come to track a task unless the deed makes it. -/
theorem contains_onQueue {id : Int} (h : q.contains id = false) (t : Ticket)
    (other : ∀ now task, deed = .track now task → task.id ≠ id) : (deed.onQueue t q).contains id = false := by
  cases deed with
  | track now task =>
    rw [Bool.eq_false_iff]
    intro hcontains
    rcases (q.contains_track now task id).1 hcontains with hid | hold
    · exact other now task rfl hid.symm
    · rw [h] at hold
      cases hold
  | untrack j tracked =>
    rw [Bool.eq_false_iff]
    intro hcontains
    have hold := ((q.contains_untrack j id).1 hcontains).2
    rw [h] at hold
    cases hold
  | _ => exact h

/-- Whoever goes by the queue leaves its channel in order. -/
theorem Fits.channel (h : deed.Fits t cancelled q) (hq : q.channel.Fits) : (deed.onQueue t q).channel.Fits := by
  cases deed with
  | join => exact Channel.fits_join hq t
  | send task => exact Channel.fits_send hq (List.contains_iff_mem.1 h) task
  | leave => exact Channel.fits_leave hq t
  | take task =>
    obtain ⟨c, hc, hafter⟩ := h.exists_takeFor
    rw [hafter]
    exact (Channel.takeFor_spec hc).2.2 hq
  | queueUp => exact ⟨hq.1, hq.2⟩
  | turnAway => exact ⟨hq.1, hq.2⟩
  | _ => exact hq

end Deed

/-! ### Retirements and passes leave the queue alone -/

theorem Retirement.isAside_of_does {task : Task} {stage stage' : Retirement}
    (h : (stage.next s task).Does stage deed stage') : deed.isAside = true := by
  cases stage <;> cases h <;> rfl

theorem Reclaim.isAside_of_does {threshold : Duration} {pass pass' : Reclaim}
    (h : (pass.next s threshold).Does pass deed pass') : deed.isAside = true := by
  cases pass with
  | retiring now task rest count stage =>
    obtain ⟨stage', hdoes, -⟩ := does_retiring h
    exact Retirement.isAside_of_does hdoes
  | _ => cases h <;> rfl

end Dispatch

end Backlog

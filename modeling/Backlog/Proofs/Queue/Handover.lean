import Backlog.Proofs.Interleaving.Receiving

/-!
# Handing tasks over

A queue and those who call it: any number of senders, who wait for room or until a token fires, and any number of
receivers.  Every call has a ticket of its own.  The calls take turns step by step, tokens fire, and whoever has called
may be gone before the call has come to its end, with its turn in the line and the place that was reserved for it.

Key facts: the tasks that were received, followed by those in the channel, are the tasks that were sent, in their order;
a call sends or receives once at most, and one that was told of its cancellation has sent nothing; every place is taken
by a task or by a call that waits to send (`Handover.Reaches.exactly_once`).
-/

namespace Backlog

open Dispatch Simulation

/-! ### The lines at a channel -/

namespace Channel

variable {c c' : Channel} {t : Ticket}

theorem line_join (c : Channel) (t : Ticket) :
    ((c.join t).granted ++ (c.join t).senders).Perm (t :: (c.granted ++ c.senders)) := by
  unfold join
  split
  · show (c.granted ++ [t] ++ c.senders).Perm _
    rw [List.append_assoc]
    exact List.perm_middle
  · show (c.granted ++ (c.senders ++ [t])).Perm _
    rw [← List.append_assoc]
    exact List.perm_append_singleton _ _

theorem line_send (h : t ∈ c.granted) (task : Task) :
    (c.send t task).granted ++ (c.send t task).senders = (c.granted ++ c.senders).erase t :=
  (List.erase_append_left _ h).symm

theorem line_leave (c : Channel) (t : Ticket) :
    (c.leave t).granted ++ (c.leave t).senders = (c.granted ++ c.senders).erase t := by
  unfold leave
  split
  · rename_i h
    rw [line_passOn]
    exact (List.erase_append_left _ (List.contains_iff_mem.1 h)).symm
  · rename_i h
    exact (List.erase_append_right _ fun hmem => h (List.contains_iff_mem.2 hmem)).symm

theorem line_takeFor {task : Task} (h : c.takeFor t = some (task, c')) :
    c'.granted ++ c'.senders = c.granted ++ c.senders := by
  unfold takeFor at h
  split at h
  · unfold take at h
    split at h
    · cases h
    · cases h
      exact line_passOn _
  · cases h

end Channel

/-! ### Calls of a queue -/

/-- Somebody who may call a queue. -/
inductive Party where
  | absent
  /-- It has called, and would give up when its token fires. -/
  | calling (token : Nat) (job : Job)
  /-- It was dropped in the middle of its call. -/
  | gone

/-- A queue and those who call it. -/
structure Handover where
  queue : Queue
  /-- Whether a token has fired. -/
  fired : Nat → Bool
  parties : Ticket → Party

namespace Handover

/-- The calls of a queue: a task is put into it, with or without a token that ends the wait, or one is taken out. -/
inductive IsCall : Job → Prop where
  | add (interruptible : Bool) (task : Task) : IsCall (.enqueue interruptible task .tracking)
  | receive : IsCall .receive

/-- The task that a call has sent, if it has come to its end with that. -/
def sent? : Job → Option Task
  | .enqueue _ task (.done true) => some task
  | _ => none

/-- The task that a call has received, if it has come to its end. -/
def received? : Job → Option Task
  | .ended (.task task) => some task
  | _ => none

/-- Whether a call has come to its end. -/
def isOver : Job → Bool
  | .enqueue _ _ (.done _) => true
  | .ended _ => true
  | _ => false

/-- The channel without whoever was dropped in the middle of a call. -/
def withdraw (c : Channel) (t : Ticket) : Job → Channel
  | .enqueue _ _ .sending => c.leave t
  | .receive => c.turnAway t
  | _ => c

/-- The handover with a party and the queue in new states. -/
def put (x : Handover) (t : Ticket) (party : Party) (q : Queue) : Handover :=
  { x with queue := q, parties := fun u => if u = t then party else x.parties u }

/-- Nobody has called a queue that was asked to have room for so many tasks. -/
def start (requested : Nat) : Handover := ⟨.empty requested, fun _ => false, fun _ => .absent⟩

/-- One thing happens: somebody calls, a call makes a step, whoever has called is dropped, a token fires, or somebody
strikes a task off the register.  A call that comes to its end is told. -/
inductive Step (s : Settings) (x : Handover) : Handover → List (Ticket × Job) → Prop where
  | call {t job} (token : Nat) (new : x.parties t = .absent) (call : IsCall job) :
    Step s x (x.put t (.calling token job) x.queue) []
  | act {t token job deed job'} (calls : x.parties t = .calling token job)
    (does : (job.next s).Does job deed job') (fits : deed.Fits t (x.fired token) x.queue) :
    Step s x (x.put t (.calling token job') (deed.onQueue t x.queue)) (if isOver job' then [(t, job')] else [])
  | drop {t token job} (calls : x.parties t = .calling token job) (waits : isOver job = false) :
    Step s x (x.put t .gone { x.queue with channel := withdraw x.queue.channel t job }) []
  | fire (token : Nat) : Step s x { x with fired := fun k => x.fired k || k == token } []
  | strike (id : Int) : Step s x { x with queue := (x.queue.untrack id).2 } []

/-- What can come of a queue, and the calls that have come to their end on the way there, with what became of them. -/
inductive Reaches (s : Settings) (requested : Nat) : Handover → List (Ticket × Job) → Prop where
  | start : Reaches s requested (start requested) []
  | step {x y es es'} (h : Reaches s requested x es) (next : Step s x y es') : Reaches s requested y (es ++ es')

/-- The tasks that calls have come to their end with, in this order. -/
def outcomes (f : Job → Option Task) (ended : List (Ticket × Job)) : List (Ticket × Task) :=
  ended.filterMap fun e => (f e.2).map fun task => (e.1, task)

theorem outcomes_append (f : Job → Option Task) (es es' : List (Ticket × Job)) :
    outcomes f (es ++ es') = outcomes f es ++ outcomes f es' := List.filterMap_append

theorem mem_outcomes {f : Job → Option Task} {es : List (Ticket × Job)} {t : Ticket} {task : Task} :
    (t, task) ∈ outcomes f es ↔ ∃ job, (t, job) ∈ es ∧ f job = some task := by
  unfold outcomes
  simp only [List.mem_filterMap, Option.map_eq_some_iff, Prod.mk.injEq, Prod.exists]
  constructor
  · rintro ⟨u, job, hmem, v, hf, rfl, rfl⟩
    exact ⟨job, hmem, hf⟩
  · rintro ⟨job, hmem, hf⟩
    exact ⟨t, job, hmem, task, hf, rfl, rfl⟩

theorem callers_sublist (f : Job → Option Task) (es : List (Ticket × Job)) :
    ((outcomes f es).map Prod.fst).Sublist (es.map Prod.fst) := by
  induction es with
  | nil => exact .slnil
  | cons e es ih =>
    unfold outcomes
    rw [List.filterMap_cons]
    cases f e.2 with
    | none => exact ih.cons _
    | some task => exact ih.cons_cons _

/-! ### The steps of a call -/

/-- What a call does in a step. -/
private inductive Acts : Job → Deed → Job → Prop where
  | track {interruptible task} (now : Timestamp) :
    Acts (.enqueue interruptible task .tracking) (.track now task) (.enqueue interruptible task .sending)
  | join {interruptible task} :
    Acts (.enqueue interruptible task .sending) .join (.enqueue interruptible task .sending)
  | send {interruptible task} :
    Acts (.enqueue interruptible task .sending) (.send task) (.enqueue interruptible task (.done true))
  | leave {task} : Acts (.enqueue true task .sending) .leave (.enqueue true task .withdrawing)
  | untrack {task} (tracked : Bool) :
    Acts (.enqueue true task .withdrawing) (.untrack task.id tracked) (.enqueue true task (.done false))
  | queueUp : Acts .receive .queueUp .receive
  | take (task : Task) : Acts .receive (.take task) (.ended (.task task))

/-- The states of a call: only one that can be interrupted is withdrawn. -/
private inductive InCall : Job → Prop where
  | add (interruptible : Bool) (task : Task) (stage : Enqueue) (h : stage = .withdrawing → interruptible = true) :
    InCall (.enqueue interruptible task stage)
  | receive : InCall .receive
  | received (task : Task) : InCall (.ended (.task task))

private theorem InCall.of_isCall {job : Job} (h : IsCall job) : InCall job := by
  cases h with
  | add interruptible task => exact .add _ _ _ nofun
  | receive => exact .receive

private theorem InCall.acts {s : Settings} {job job' : Job} {deed : Deed} (h : InCall job)
    (does : (job.next s).Does job deed job') : Acts job deed job' := by
  cases h with
  | add interruptible task stage hstage =>
    cases stage with
    | tracking =>
      cases does with
      | track now => exact .track now
    | sending =>
      cases does with
      | join => exact .join
      | send => exact .send
      | leave hinterrupted =>
        cases interruptible with
        | false => cases hinterrupted
        | true =>
          cases hinterrupted
          exact .leave
    | withdrawing =>
      obtain rfl := hstage rfl
      cases does with
      | untrack tracked => exact .untrack tracked
    | done sent => cases does
  | receive =>
    cases does with
    | queueUp => exact .queueUp
    | take task => exact .take task
    | turnAway hinterrupted => cases hinterrupted
  | received task => cases does

private theorem Acts.inCall {job job' : Job} {deed : Deed} (h : Acts job deed job') : InCall job' := by
  cases h with
  | take task => exact .received task
  | queueUp => exact .receive
  | leave => exact .add _ _ _ fun _ => rfl
  | untrack tracked => exact .add _ _ _ fun _ => rfl
  | _ => exact .add _ _ _ nofun

/-! ### The invariant -/

/-- Whoever stands in a line at the channel stands there once, and is in the middle of a call that waits there. -/
structure Lined (x : Handover) : Prop where
  line : (x.queue.channel.granted ++ x.queue.channel.senders).Nodup
  sends : ∀ t ∈ x.queue.channel.granted ++ x.queue.channel.senders, ∃ token interruptible task,
    x.parties t = .calling token (.enqueue interruptible task .sending)
  receivers : x.queue.channel.receivers.Nodup
  receives : ∀ t ∈ x.queue.channel.receivers, ∃ token, x.parties t = .calling token .receive

variable {s : Settings} {requested : Nat} {x y : Handover} {es es' : List (Ticket × Job)} {t : Ticket} {token : Nat}
  {job job' : Job} {deed : Deed} {party : Party} {q : Queue}

theorem parties_put (x : Handover) (t : Ticket) (party : Party) (q : Queue) (u : Ticket) :
    (x.put t party q).parties u = if u = t then party else x.parties u := rfl

private theorem parties_put_of_ne {u : Ticket} (h : u ≠ t) : (x.put t party q).parties u = x.parties u := if_neg h

/-- One party goes on, and what has become of the lines tells whether it stands in one of them. -/
private theorem Lined.put (h : Lined x)
    (line : (q.channel.granted ++ q.channel.senders).Nodup) (receivers : q.channel.receivers.Nodup)
    (sends : ∀ u ∈ q.channel.granted ++ q.channel.senders,
      u ≠ t ∧ u ∈ x.queue.channel.granted ++ x.queue.channel.senders ∨
        u = t ∧ ∃ token interruptible task, party = .calling token (.enqueue interruptible task .sending))
    (receives : ∀ u ∈ q.channel.receivers, u ≠ t ∧ u ∈ x.queue.channel.receivers ∨
      u = t ∧ ∃ token, party = .calling token .receive) : Lined (x.put t party q) := by
  refine ⟨line, fun u hu => ?_, receivers, fun u hu => ?_⟩
  · rcases sends u hu with ⟨hne, hold⟩ | ⟨rfl, hparty⟩
    · rw [parties_put_of_ne hne]
      exact h.sends u hold
    · rw [parties_put, if_pos rfl]
      exact hparty
  · rcases receives u hu with ⟨hne, hold⟩ | ⟨rfl, hparty⟩
    · rw [parties_put_of_ne hne]
      exact h.receives u hold
    · rw [parties_put, if_pos rfl]
      exact hparty

/-- Whoever does not wait to send stands in no line of senders. -/
private theorem Lined.notMem_line (h : Lined x)
    (other : ∀ token interruptible task, x.parties t ≠ .calling token (.enqueue interruptible task .sending)) :
    ∀ u ∈ x.queue.channel.granted ++ x.queue.channel.senders, u ≠ t := by
  rintro u hu rfl
  obtain ⟨token, interruptible, task, hparty⟩ := h.sends u hu
  exact other token interruptible task hparty

private theorem Lined.notMem_receivers (h : Lined x) (other : ∀ token, x.parties t ≠ .calling token .receive) :
    ∀ u ∈ x.queue.channel.receivers, u ≠ t := by
  rintro u hu rfl
  obtain ⟨token, hparty⟩ := h.receives u hu
  exact other token hparty

private theorem ne_of_mem_erase {l : List Ticket} (h : l.Nodup) {u : Ticket} (hu : u ∈ l.erase t) : u ≠ t ∧ u ∈ l :=
  ⟨fun heq => h.not_mem_erase (heq ▸ hu), List.mem_of_mem_erase hu⟩

/-- Whoever stands in no line goes on without coming to one. -/
private theorem Lined.aside (h : Lined x) (hq : q.channel = x.queue.channel)
    (notSends : ∀ token interruptible task, x.parties t ≠ .calling token (.enqueue interruptible task .sending))
    (notReceives : ∀ token, x.parties t ≠ .calling token .receive) : Lined (x.put t party q) := by
  refine h.put (hq ▸ h.line) (hq ▸ h.receivers) (fun u hu => ?_) fun u hu => ?_
  · rw [hq] at hu
    exact .inl ⟨h.notMem_line notSends u hu, hu⟩
  · rw [hq] at hu
    exact .inl ⟨h.notMem_receivers notReceives u hu, hu⟩

private theorem Lined.leaveLine (h : Lined x) {interruptible : Bool} {task : Task}
    (calls : x.parties t = .calling token (.enqueue interruptible task .sending))
    (line : q.channel.granted ++ q.channel.senders
      = (x.queue.channel.granted ++ x.queue.channel.senders).erase t)
    (receivers : q.channel.receivers = x.queue.channel.receivers) : Lined (x.put t party q) := by
  have notReceives : ∀ token, x.parties t ≠ .calling token .receive := by
    intro token' heq
    rw [calls] at heq
    cases heq
  refine h.put (line ▸ h.line.erase t) (receivers ▸ h.receivers) (fun u hu => ?_) fun u hu => ?_
  · rw [line] at hu
    exact .inl (ne_of_mem_erase h.line hu)
  · rw [receivers] at hu
    exact .inl ⟨h.notMem_receivers notReceives u hu, hu⟩

private theorem Lined.leaveReceivers (h : Lined x) (calls : x.parties t = .calling token .receive)
    (line : q.channel.granted ++ q.channel.senders = x.queue.channel.granted ++ x.queue.channel.senders)
    (receivers : q.channel.receivers = x.queue.channel.receivers.erase t) : Lined (x.put t party q) := by
  have notSends : ∀ token interruptible task,
      x.parties t ≠ .calling token (.enqueue interruptible task .sending) := by
    intro token' interruptible task heq
    rw [calls] at heq
    cases heq
  refine h.put (line ▸ h.line) (receivers ▸ h.receivers.erase t) (fun u hu => ?_) fun u hu => ?_
  · rw [line] at hu
    exact .inl ⟨h.notMem_line notSends u hu, hu⟩
  · rw [receivers] at hu
    exact .inl (ne_of_mem_erase h.receivers hu)

private theorem Lined.act (h : Lined x) (calls : x.parties t = .calling token job) (acts : Acts job deed job')
    (fits : deed.Fits t (x.fired token) x.queue) :
    Lined (x.put t (.calling token job') (deed.onQueue t x.queue)) := by
  cases acts with
  | track now => exact h.aside rfl (by simp [calls]) (by simp [calls])
  | untrack tracked => exact h.aside rfl (by simp [calls]) (by simp [calls])
  | send =>
    exact h.leaveLine calls (Channel.line_send (List.contains_iff_mem.1 fits) _) rfl
  | leave => exact h.leaveLine calls (Channel.line_leave _ _) (Channel.receivers_leave _ _)
  | @join interruptible task =>
    -- whoever joins the line did not stand in it, so nobody comes to stand there twice
    have hperm := Channel.line_join x.queue.channel t
    have hout : t ∉ x.queue.channel.granted ++ x.queue.channel.senders := by
      rw [List.mem_append, ← List.contains_iff_mem]
      rintro (hgranted | hsenders)
      · exact absurd (fits.1.symm.trans hgranted) (by decide)
      · exact fits.2 hsenders
    have hreceivers := Channel.receivers_join x.queue.channel t
    refine h.put (hperm.nodup_iff.2 (List.nodup_cons.2 ⟨hout, h.line⟩)) (hreceivers ▸ h.receivers)
      (fun u hu => ?_) fun u hu => ?_
    · rcases List.mem_cons.1 (hperm.mem_iff.1 hu) with rfl | hold
      · exact .inr ⟨rfl, token, interruptible, task, rfl⟩
      · exact .inl ⟨fun heq => hout (heq ▸ hold), hold⟩
    · have hu : u ∈ x.queue.channel.receivers := hreceivers ▸ hu
      exact .inl ⟨h.notMem_receivers (by simp [calls]) u hu, hu⟩
  | queueUp =>
    have hout : t ∉ x.queue.channel.receivers := fits
    refine h.put h.line ?_ (fun u hu => .inl ⟨h.notMem_line (by simp [calls]) u hu, hu⟩) fun u hu => ?_
    · refine List.nodup_append.2 ⟨h.receivers, List.pairwise_singleton _ _, ?_⟩
      rintro a ha b hb rfl
      obtain rfl : a = t := List.mem_singleton.1 hb
      exact hout ha
    · rcases List.mem_append.1 hu with hold | hnew
      · exact .inl ⟨fun heq => hout (heq ▸ hold), hold⟩
      · exact .inr ⟨List.mem_singleton.1 hnew, token, rfl⟩
  | take task =>
    obtain ⟨c, hc, hafter⟩ := fits.exists_takeFor
    rw [hafter]
    refine h.leaveReceivers calls (Channel.line_takeFor hc) ?_
    rw [Channel.receivers_of_takeFor hc, List.erase_cons_head]

private theorem Lined.drop (h : Lined x) (calls : x.parties t = .calling token job) (inCall : InCall job)
    (waits : isOver job = false) :
    Lined (x.put t .gone { x.queue with channel := withdraw x.queue.channel t job }) := by
  cases inCall with
  | received task => cases waits
  | receive => exact h.leaveReceivers calls rfl rfl
  | add interruptible task stage =>
    cases stage with
    | sending => exact h.leaveLine calls (Channel.line_leave _ _) (Channel.receivers_leave _ _)
    | tracking => exact h.aside rfl (by simp [calls]) (by simp [calls])
    | withdrawing => exact h.aside rfl (by simp [calls]) (by simp [calls])
    | done sent => cases waits

/-- What holds of a queue and of the calls that have come to their end. -/
private structure Sound (requested : Nat) (x : Handover) (es : List (Ticket × Job)) : Prop where
  lined : Lined x
  fits : x.queue.channel.Fits
  capacity : x.queue.channel.capacity = max requested 1
  inCall : ∀ t token job, x.parties t = .calling token job → InCall job
  order : (outcomes received? es).map Prod.snd ++ x.queue.channel.items = (outcomes sent? es).map Prod.snd
  callers : (es.map Prod.fst).Nodup
  ended : ∀ e ∈ es, isOver e.2 = true ∧ ∃ token, x.parties e.1 = .calling token e.2

private theorem sound_start (requested : Nat) : Sound requested (start requested) [] where
  lined := by constructor <;> simp [start, Queue.empty, Channel.empty]
  fits := Channel.fits_empty requested
  capacity := rfl
  inCall := by simp [start]
  order := rfl
  callers := List.nodup_nil
  ended := by simp

/-- The tasks that come out of the channel are those that go into it. -/
private theorem Acts.order (acts : Acts job deed job') (fits : deed.Fits t (x.fired token) x.queue)
    (order : (outcomes received? es).map Prod.snd ++ x.queue.channel.items = (outcomes sent? es).map Prod.snd) :
    (outcomes received? (es ++ if isOver job' then [(t, job')] else [])).map Prod.snd
        ++ (deed.onQueue t x.queue).channel.items
      = (outcomes sent? (es ++ if isOver job' then [(t, job')] else [])).map Prod.snd := by
  rw [outcomes_append, outcomes_append, List.map_append, List.map_append, ← order]
  -- a task that is sent comes last on both sides, and one that is taken goes from the channel to the received ones
  cases acts with
  | track now => simp [isOver, outcomes, Deed.onQueue, Queue.track]
  | join => simp [isOver, outcomes, Deed.onQueue, Channel.items_join]
  | send => simp [isOver, outcomes, sent?, received?, Deed.onQueue, Channel.send]
  | leave => simp [isOver, outcomes, Deed.onQueue, Channel.items_leave]
  | untrack tracked => simp [isOver, outcomes, sent?, received?, Deed.onQueue, Queue.untrack]
  | queueUp => simp [isOver, outcomes, Deed.onQueue, Channel.queueUp]
  | take task =>
    obtain ⟨c, hc, hafter⟩ := fits.exists_takeFor
    rw [hafter, (Channel.takeFor_spec hc).1]
    simp [isOver, outcomes, sent?, received?]

private theorem inCall_put (h : ∀ u token job, x.parties u = .calling token job → InCall job)
    (hparty : ∀ token job, party = .calling token job → InCall job) :
    ∀ u token job, (x.put t party q).parties u = .calling token job → InCall job := by
  intro u token job hu
  rw [parties_put] at hu
  split at hu
  · exact hparty token job hu
  · exact h u token job hu

/-- Whoever has not come to the end of a call goes on beside those that have. -/
private theorem ended_put (h : ∀ e ∈ es, isOver e.2 = true ∧ ∃ token, x.parties e.1 = .calling token e.2)
    (new : t ∉ es.map Prod.fst) :
    ∀ e ∈ es, isOver e.2 = true ∧ ∃ token, (x.put t party q).parties e.1 = .calling token e.2 := by
  intro e he
  have hne : e.1 ≠ t := by
    rintro rfl
    exact new (List.mem_map_of_mem he)
  rw [parties_put_of_ne hne]
  exact h e he

private theorem Sound.notMem_callers (h : Sound requested x es) (calls : x.parties t = .calling token job)
    (waits : isOver job = false) : t ∉ es.map Prod.fst := by
  intro hmem
  obtain ⟨e, he, rfl⟩ := List.mem_map.1 hmem
  obtain ⟨hover, token', hparty⟩ := h.ended e he
  rw [calls] at hparty
  cases hparty
  rw [waits] at hover
  cases hover

private theorem Sound.step (h : Sound requested x es) (hstep : Step s x y es') : Sound requested y (es ++ es') := by
  cases hstep with
  | @call t job token new call =>
    have hcallers : t ∉ es.map Prod.fst := by
      intro hmem
      obtain ⟨e, he, rfl⟩ := List.mem_map.1 hmem
      obtain ⟨-, token', hparty⟩ := h.ended e he
      rw [new] at hparty
      cases hparty
    have hinCall : ∀ token' job', Party.calling token job = .calling token' job' → InCall job' := by
      intro token' job' heq
      cases heq
      exact .of_isCall call
    rw [List.append_nil]
    exact ⟨h.lined.aside rfl (by simp [new]) (by simp [new]), h.fits, h.capacity, inCall_put h.inCall hinCall,
      h.order, h.callers, ended_put h.ended hcallers⟩
  | @act t token job deed job' calls does fits =>
    have acts := (h.inCall t token job calls).acts does
    have waits : isOver job = false := by cases acts <;> rfl
    have hcallers := h.notMem_callers calls waits
    have hinCall : ∀ token' job'', Party.calling token job' = .calling token' job'' → InCall job'' := by
      intro token' job'' heq
      cases heq
      exact acts.inCall
    refine ⟨h.lined.act calls acts fits, fits.channel h.fits, (Deed.capacity_onQueue _ _ _).trans h.capacity,
      inCall_put h.inCall hinCall, acts.order fits h.order, ?_, ?_⟩
    · split
      · rw [List.map_append]
        refine List.nodup_append.2 ⟨h.callers, List.pairwise_singleton _ _, ?_⟩
        rintro a ha b hb rfl
        obtain rfl : a = t := List.mem_singleton.1 hb
        exact hcallers ha
      · rw [List.append_nil]
        exact h.callers
    · intro e he
      rcases List.mem_append.1 he with hold | hnew
      · exact ended_put h.ended hcallers e hold
      · split at hnew
        · rename_i hover
          obtain rfl := List.mem_singleton.1 hnew
          exact ⟨hover, token, if_pos rfl⟩
        · cases hnew
  | @drop t token job calls waits =>
    have hcallers := h.notMem_callers calls waits
    have hchannel : (withdraw x.queue.channel t job).Fits ∧
        (withdraw x.queue.channel t job).capacity = x.queue.channel.capacity ∧
        (withdraw x.queue.channel t job).items = x.queue.channel.items := by
      unfold withdraw
      split
      · exact ⟨Channel.fits_leave h.fits t, Channel.capacity_leave _ _, Channel.items_leave _ _⟩
      · exact ⟨⟨h.fits.1, h.fits.2⟩, rfl, rfl⟩
      · exact ⟨h.fits, rfl, rfl⟩
    rw [List.append_nil]
    refine ⟨h.lined.drop calls (h.inCall t token job calls) waits, hchannel.1, hchannel.2.1.trans h.capacity,
      inCall_put h.inCall (by simp), ?_, h.callers, ended_put h.ended hcallers⟩
    show (outcomes received? es).map Prod.snd ++ (withdraw x.queue.channel t job).items = _
    rw [hchannel.2.2]
    exact h.order
  | fire token =>
    rw [List.append_nil]
    exact ⟨⟨h.lined.1, h.lined.2, h.lined.3, h.lined.4⟩, h.fits, h.capacity, h.inCall, h.order, h.callers, h.ended⟩
  | strike id =>
    rw [List.append_nil]
    exact ⟨⟨h.lined.1, h.lined.2, h.lined.3, h.lined.4⟩, h.fits, h.capacity, h.inCall, h.order, h.callers, h.ended⟩

private theorem Reaches.sound (h : Reaches s requested x es) : Sound requested x es := by
  induction h with
  | start => exact sound_start requested
  | step _ next ih => exact ih.step next

/-- The tasks that were received, followed by those in the channel, are the tasks that were sent, in their order.  A
call sends one task at most and receives one at most, so what the k-th sender has sent goes to the k-th receiver and to
nobody else; a call that was told of its cancellation has not sent, at whatever time.  No more places are taken than
there are, nobody waits for one that is free, and each is taken by a task that was sent and not received, or by a call
that still waits to send: whoever has left has left nothing behind in any line. -/
theorem Reaches.exactly_once (h : Reaches s requested x es) :
    (outcomes received? es).map Prod.snd ++ x.queue.channel.items = (outcomes sent? es).map Prod.snd ∧
    ((outcomes sent? es).map Prod.fst).Nodup ∧ ((outcomes received? es).map Prod.fst).Nodup ∧
    (∀ (k : Nat) r task, (outcomes received? es)[k]? = some (r, task) → ∃ t, (outcomes sent? es)[k]? = some (t, task)) ∧
    (∀ t interruptible task, (t, .enqueue interruptible task (.done false)) ∈ es →
      ∀ sent, (t, sent) ∉ outcomes sent? es) ∧
    x.queue.channel.capacity = max requested 1 ∧ x.queue.channel.buffered ≤ x.queue.channel.capacity ∧
    (x.queue.channel.senders ≠ [] → x.queue.channel.buffered = x.queue.channel.capacity) ∧
    x.queue.channel.buffered + (outcomes received? es).length
      = (outcomes sent? es).length + x.queue.channel.granted.length ∧
    Lined x := by
  have sound := h.sound
  refine ⟨sound.order, sound.callers.sublist (callers_sublist _ _), sound.callers.sublist (callers_sublist _ _), ?_, ?_,
    sound.capacity, sound.fits.buffered_le, sound.fits.full, ?_, sound.lined⟩
  · intro k r task hk
    have hsent : ((outcomes sent? es).map Prod.snd)[k]? = some task := by
      have hlt : k < ((outcomes received? es).map Prod.snd).length := by
        rw [List.length_map]
        exact (List.getElem?_eq_some_iff.1 hk).1
      rw [← sound.order, List.getElem?_append_left hlt, List.getElem?_map, hk]
      rfl
    rw [List.getElem?_map] at hsent
    obtain ⟨⟨t, sent⟩, hpair, rfl⟩ := Option.map_eq_some_iff.1 hsent
    exact ⟨t, hpair⟩
  · -- a party calls once, so its call cannot have ended in both ways
    intro t interruptible task hcancelled sent hsent
    obtain ⟨job, hjob, hof⟩ := mem_outcomes.1 hsent
    obtain ⟨-, token, hparty⟩ := sound.ended _ hcancelled
    obtain ⟨-, token', hparty'⟩ := sound.ended _ hjob
    rw [hparty] at hparty'
    cases hparty'
    cases hof
  · have hlength := congrArg List.length sound.order
    rw [List.length_append, List.length_map, List.length_map] at hlength
    unfold Channel.buffered
    omega

/-- A task with a number, as it is put into a queue. -/
def numbered (id : Int) : Task := ⟨id, "", .pending, default, none, none, "", 0, 0⟩

/-- The first receiver in line is dropped; the place of the first task goes to a sender that is told of its cancellation
before it sends, and from there to the next one in line. -/
private theorem reaches_passedOn : ∃ x es, Reaches .standard 0 x es ∧
    es = [(0, .enqueue false (numbered 1) (.done true)), (4, .ended (.task (numbered 1))),
      (1, .enqueue true (numbered 2) (.done false)), (2, .enqueue false (numbered 3) (.done true))] ∧
    x.queue.channel = ⟨1, [numbered 3], [], [], []⟩ := by
  have h := (Reaches.start : Reaches .standard 0 _ _).step (.call (t := 3) 0 rfl .receive)
  have h := h.step (.act (t := 3) rfl .queueUp List.not_mem_nil)
  have h := h.step (.call (t := 4) 0 rfl .receive)
  have h := h.step (.act (t := 4) rfl .queueUp (show 4 ∉ [3] by decide))
  have h := h.step (.drop (t := 3) rfl rfl)
  have h := h.step (.call (t := 0) 0 rfl (.add false (numbered 1)))
  have h := h.step (.act (t := 0) rfl (.track default) trivial)
  have h := h.step (.act (t := 0) rfl .join ⟨rfl, List.not_mem_nil⟩)
  have h := h.step (.act (t := 0) rfl .send rfl)
  have h := h.step (.call (t := 1) 7 rfl (.add true (numbered 2)))
  have h := h.step (.act (t := 1) rfl (.track default) trivial)
  have h := h.step (.act (t := 1) rfl .join ⟨rfl, List.not_mem_nil⟩)
  have h := h.step (.call (t := 2) 0 rfl (.add false (numbered 3)))
  have h := h.step (.act (t := 2) rfl (.track default) trivial)
  have h := h.step (.act (t := 2) rfl .join ⟨rfl, show 2 ∉ [1] by decide⟩)
  have h := h.step (.act (t := 4) rfl (.take (numbered 1)) rfl)
  have h := h.step (.fire 7)
  have h := h.step (.act (t := 1) rfl (.leave rfl) rfl)
  have h := h.step (.act (t := 1) rfl (.untrack true) rfl)
  have h := h.step (.act (t := 2) rfl .send rfl)
  exact ⟨_, _, h, rfl, rfl⟩

/-- On the way to the last of these sends, the first two tasks have met a receiver that was dropped and a sender whose
token has fired, and still the first one is received, the second one never, and the third one is in the channel. -/
theorem exactly_once_of_passedOn : ∃ x es, Reaches .standard 0 x es ∧
    outcomes received? es = [(4, numbered 1)] ∧ outcomes sent? es = [(0, numbered 1), (2, numbered 3)] ∧
    (outcomes received? es).map Prod.snd ++ x.queue.channel.items = (outcomes sent? es).map Prod.snd ∧
    (∃ t, (outcomes sent? es)[0]? = some (t, numbered 1)) ∧
    (1, .enqueue true (numbered 2) (.done false)) ∈ es ∧ (∀ sent, (1, sent) ∉ outcomes sent? es) ∧
    x.queue.channel.capacity = 1 ∧ x.queue.channel.buffered ≤ x.queue.channel.capacity ∧ Lined x := by
  obtain ⟨x, es, h, rfl, hchannel⟩ := reaches_passedOn
  obtain ⟨order, -, -, matched, cancelled, -, buffered, -, -, lined⟩ := h.exactly_once
  have hcancelled : (1, .enqueue true (numbered 2) (.done false)) ∈ ([(0, .enqueue false (numbered 1) (.done true)),
      (4, .ended (.task (numbered 1))), (1, .enqueue true (numbered 2) (.done false)),
      (2, .enqueue false (numbered 3) (.done true))] : List (Ticket × Job)) :=
    .tail _ (.tail _ (.head _))
  exact ⟨x, _, h, rfl, rfl, order, matched 0 4 (numbered 1) rfl, hcancelled, cancelled 1 true _ hcancelled,
    congrArg Channel.capacity hchannel, buffered, lined⟩

end Handover

end Backlog

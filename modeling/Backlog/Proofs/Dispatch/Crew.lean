import Backlog.Dispatch.Dispatcher
import Backlog.Dispatch.Worker
import Backlog.Proofs.Dispatch.Deed

/-!
# A dispatcher and its workers

A dispatcher and a number of workers share a queue, to which nobody else comes, and a token, which may fire at any
moment.  They act in any order, one step of one machine at a time.  The store may answer any call in any way, with a
stale listing or with any error, and what others do to it meanwhile is part of that.

Key facts: the register of the queue, the channel and the hands of the workers always agree, and no task is in two
places (`Crew.Reaches.in_flight_once`).  A dispatcher and a worker do no more to the queue than `Dispatcher.Passes` and
`Worker.Holds` say, so the agreement need not be shown for every state of theirs.
-/

namespace Backlog.Dispatch

open Store

/-! ### What the dispatcher does to the queue -/

/-- The task that a poll is about to put into the queue, which does not track it yet. -/
def Poll.chosen? : Poll → Option Int
  | enqueueing task _ _ .tracking => some task.id
  | _ => none

/-- The task that a poll is just putting into the queue, which tracks it. -/
def Poll.adding? : Poll → Option Int
  | enqueueing task _ _ .sending => some task.id
  | enqueueing task _ _ .withdrawing => some task.id
  | _ => none

namespace Dispatcher

/-- The task that the dispatcher is about to put into the queue, which does not track it yet. -/
def chosen? : Dispatcher → Option Int
  | polling _ poll => poll.chosen?
  | _ => none

/-- The task that the dispatcher is just putting into the queue, which tracks it. -/
def adding? : Dispatcher → Option Int
  | polling _ poll => poll.adding?
  | _ => none

/-- What becomes of the tasks that the dispatcher has chosen and is adding with what it does to the queue. -/
inductive Passes : Option Int → Option Int → Deed → Option Int → Option Int → Prop where
  | choose (id : Int) : Passes none none (.look id false) (some id) none
  | track (now : Timestamp) (task : Task) : Passes (some task.id) none (.track now task) none (some task.id)
  | join (id : Int) : Passes none (some id) .join none (some id)
  | send (task : Task) : Passes none (some task.id) (.send task) none none
  | leave (id : Int) : Passes none (some id) .leave none (some id)
  | untrack (id : Int) (tracked : Bool) : Passes none (some id) (.untrack id tracked) none none
  | aside {deed : Deed} (h : deed.isAside = true) : Passes none none deed none none

end Dispatcher

variable {s : Settings} {deed : Deed}

private theorem Poll.choice_onward (count : Nat) (rest : List Task) :
    (onward count rest).chosen? = none ∧ (onward count rest).adding? = none := by
  cases rest <;> exact ⟨rfl, rfl⟩

private theorem Poll.passes_of_does {poll poll' : Poll} (h : (poll.next s).Does poll deed poll') :
    Dispatcher.Passes poll.chosen? poll.adding? deed poll'.chosen? poll'.adding? := by
  -- a poll that comes to the next task has chosen none yet
  have onwards (deed : Deed) (haside : deed.isAside = true) (count : Nat) (rest : List Task) :
      Dispatcher.Passes none none deed (onward count rest).chosen? (onward count rest).adding? := by
    obtain ⟨hchosen, hadding⟩ := choice_onward count rest
    rw [hchosen, hadding]
    exact .aside haside
  cases poll with
  | starting =>
    cases h
    exact .aside rfl
  | listing =>
    cases h with
    | ask result =>
      cases result with
      | ok tasks => exact onwards _ rfl 0 tasks
      | error e => exact .aside rfl
    | drop hy =>
      cases hy
      exact .aside rfl
  | failing e =>
    cases h
    exact .aside rfl
  | checking task rest count =>
    cases h with
    | look tracked =>
      cases tracked with
      | true => exact onwards _ rfl count rest
      | false =>
        unfold afterCheck
        rw [if_neg Bool.false_ne_true]
        split
        · exact .aside rfl
        · exact .choose task.id
  | retiring task rest count stage =>
    obtain ⟨stage', hdoes, rfl⟩ := does_retiring h
    have haside := Retirement.isAside_of_does hdoes
    cases stage' with
    | done moved => exact onwards _ haside count rest
    | _ => exact .aside haside
  | enqueueing task rest count stage =>
    obtain ⟨stage', hdoes, rfl⟩ := does_enqueueing h
    cases stage with
    | tracking =>
      cases hdoes with
      | track now => exact .track now task
    | sending =>
      cases hdoes with
      | join => exact .join task.id
      | send => exact .send task
      | leave hy =>
        cases hy
        exact .leave task.id
    | withdrawing =>
      cases hdoes with
      | untrack tracked => exact .untrack task.id tracked
    | done sent => cases hdoes
  | counting rest count =>
    cases h
    exact onwards _ rfl count rest
  | done result => cases h

theorem Dispatcher.passes_of_does {d d' : Dispatcher} (h : (d.next s).Does d deed d') :
    Passes d.chosen? d.adding? deed d'.chosen? d'.adding? := by
  cases d with
  | starting =>
    cases h
    exact .aside rfl
  | timing =>
    cases h
    exact .aside rfl
  | waiting first due =>
    cases h with
    | wake moment => exact .aside rfl
    | rise hy =>
      cases hy
      exact .aside rfl
  | reclaiming due threshold pass =>
    obtain ⟨pass', hdoes, rfl⟩ := does_reclaiming h
    have haside := Reclaim.isAside_of_does hdoes
    cases pass' <;> exact .aside haside
  | polling due poll =>
    obtain ⟨poll', hdoes, rfl⟩ := does_polling h
    have hpasses := Poll.passes_of_does hdoes
    cases poll' <;> exact hpasses
  | stopping =>
    cases h
    exact .aside rfl
  | stopped => cases h

/-! ### What a worker does to the queue -/

/-- What becomes of the task that a worker holds with what it does to the queue. -/
inductive Worker.Holds : Option Int → Deed → Option Int → Prop where
  | queueUp : Holds none .queueUp none
  | take (task : Task) : Holds none (.take task) (some task.id)
  | turnAway : Holds none .turnAway none
  | untrack (id : Int) (tracked : Bool) : Holds (some id) (.untrack id tracked) none
  | aside {deed : Deed} (h : deed.isAside = true) (held : Option Int) : Holds held deed held

theorem Worker.holds_of_does {w w' : Worker} (h : (w.next s).Does w deed w') : Holds w.held? deed w'.held? := by
  cases w with
  | idle =>
    cases h with
    | queueUp => exact .queueUp
    | take task => exact .take task
    | turnAway hy =>
      cases hy
      exact .turnAway
  | claiming task start tr =>
    cases tr with
    | done result =>
      cases result with
      | ok a =>
        cases h
        exact .aside rfl _
      | error e =>
        simp only [Worker.next] at h
        split at h <;> cases h
        · exact .untrack task.id _
        · exact .aside rfl _
    | pausing e failures backoff =>
      cases h with
      | rest => exact .aside rfl _
      | rouse hy =>
        cases hy
        exact .aside rfl _
    | _ =>
      cases h with
      | ask result => exact .aside rfl _
      | drop hy => cases hy
  | completing task start finish tr =>
    cases tr with
    | done result =>
      cases result <;> cases h <;> exact .aside rfl _
    | pausing e failures backoff =>
      cases h with
      | rest => exact .aside rfl _
      | rouse hy =>
        cases hy
        exact .aside rfl _
    | _ =>
      cases h with
      | ask result => exact .aside rfl _
      | drop hy => cases hy
  | working task start span =>
    cases h with
    | rest => exact .aside rfl _
    | rouse hy =>
      cases hy
      exact .aside rfl _
  | releasing id =>
    cases h with
    | untrack tracked => exact .untrack id tracked
  | stopped => cases h
  | _ =>
    cases h
    exact .aside rfl _

/-! ### The crew -/

/-- A dispatcher, its workers, and what they share. -/
structure Crew where
  queue : Queue
  /-- Whether the token has fired. -/
  cancelled : Bool
  dispatcher : Dispatcher
  workers : List Worker

namespace Crew

/-- A crew that is about to begin. -/
def start (s : Settings) : Crew := ⟨.empty s.queueCapacity, false, .starting, List.replicate s.workers .idle⟩

/-- What may happen next: the token fires, or one of the machines does something. -/
inductive Moves (s : Settings) (x : Crew) : Crew → Prop where
  | cancel : Moves s x { x with cancelled := true }
  | dispatch {deed : Deed} {d : Dispatcher} (does : (x.dispatcher.next s).Does x.dispatcher deed d)
      (fits : deed.Fits 0 x.cancelled x.queue) :
    Moves s x { x with dispatcher := d, queue := deed.onQueue 0 x.queue }
  | work {i : Nat} {w w' : Worker} {deed : Deed} (here : x.workers[i]? = some w) (does : (w.next s).Does w deed w')
      (fits : deed.Fits (i + 1) x.cancelled x.queue) :
    Moves s x { x with workers := x.workers.set i w', queue := deed.onQueue (i + 1) x.queue }

/-- What can come of a crew. -/
inductive Reaches (s : Settings) (x₀ : Crew) : Crew → Prop where
  | start : Reaches s x₀ x₀
  | step {x y : Crew} (h : Reaches s x₀ x) (m : x.Moves s y) : Reaches s x₀ y

/-- The tasks in the channel, the one that the dispatcher is just adding, and those that workers have received and not
struck off yet. -/
def inFlight (x : Crew) : List Int :=
  x.queue.channel.items.map Task.id ++ x.dispatcher.adding?.toList ++ x.workers.filterMap Worker.held?

/-- The register agrees with the channel and the hands of the workers, and nothing stands twice in it. -/
structure Agrees (s : Settings) (x : Crew) : Prop where
  perm : x.queue.ids.Perm x.inFlight
  nodup : x.queue.ids.Nodup
  /-- What the dispatcher has chosen is not tracked until it begins to add it. -/
  chosen : ∀ id, x.dispatcher.chosen? = some id → id ∉ x.queue.ids
  fits : x.queue.channel.Fits
  capacity : x.queue.channel.capacity = max s.queueCapacity 1
  workers : x.workers.length = s.workers

theorem agrees_start (s : Settings) : (start s).Agrees s where
  perm := by
    have hnone : (List.replicate s.workers Worker.idle).filterMap Worker.held? = [] := by
      rw [List.filterMap_eq_nil_iff]
      intro w hw
      rw [List.eq_of_mem_replicate hw]
      rfl
    show List.Perm [] ([] ++ [] ++ (List.replicate s.workers Worker.idle).filterMap Worker.held?)
    rw [hnone]
    exact .nil
  nodup := .nil
  chosen id h := by cases h
  fits := Channel.fits_empty _
  capacity := rfl
  workers := List.length_replicate

/-! ### Every move keeps the agreement -/

private theorem filter_perm {id : Int} {l m : List Int} (hl : l.Nodup) (h : l.Perm (id :: m)) :
    (l.filter (· ≠ id)).Perm m := by
  have hsame : l.filter (· ≠ id) = l.erase id := by
    rw [hl.erase_eq_filter]
    refine List.filter_congr fun x _ => ?_
    by_cases hx : x = id <;> simp [hx]
  rw [hsame, ← List.erase_cons_head (a := id) (l := m)]
  exact h.erase id

private theorem nodup_filter {id : Int} {l : List Int} (hl : l.Nodup) : (l.filter (· ≠ id)).Nodup :=
  hl.sublist List.filter_sublist

variable {chosen adding chosen' adding' held held' : Option Int} {t : Ticket} {cancelled : Bool} {q : Queue}

private theorem ids_perm_of_passes (h : Dispatcher.Passes chosen adding deed chosen' adding')
    (fits : deed.Fits t cancelled q) (nodup : q.ids.Nodup) (hchosen : ∀ id, chosen = some id → id ∉ q.ids)
    {others : List Int} (perm : q.ids.Perm (q.channel.items.map Task.id ++ adding.toList ++ others)) :
    (deed.onQueue t q).ids.Perm ((deed.onQueue t q).channel.items.map Task.id ++ adding'.toList ++ others) ∧
      (deed.onQueue t q).ids.Nodup ∧ ∀ id, chosen' = some id → id ∉ (deed.onQueue t q).ids := by
  cases h with
  | choose id =>
    refine ⟨perm, nodup, ?_⟩
    rintro _ ⟨⟩ hmem
    have hcontains := (q.contains_iff_mem_ids id).2 hmem
    rw [← show false = q.contains id from fits] at hcontains
    cases hcontains
  | track now task =>
    have hnot : task.id ∉ q.ids := hchosen _ rfl
    have hsame : q.ids.filter (· ≠ task.id) = q.ids := by
      rw [List.filter_eq_self]
      intro id hid
      have hne : id ≠ task.id := fun he => hnot (he ▸ hid)
      simpa using hne
    have hids : (q.track now task).ids = q.ids ++ [task.id] := by rw [q.ids_track, hsame]
    refine ⟨?_, ?_, fun id h => by cases h⟩
    · show (q.track now task).ids.Perm (q.channel.items.map Task.id ++ [task.id] ++ others)
      rw [hids]
      refine (perm.append_right [task.id]).trans ?_
      rw [show (none : Option Int).toList = [] from rfl, List.append_nil, List.append_assoc, List.append_assoc]
      exact List.perm_append_comm.append_left _
    · show (q.track now task).ids.Nodup
      rw [hids]
      exact List.nodup_append.2 ⟨nodup, List.pairwise_singleton _ _, fun a ha b hb =>
        fun he => hnot (List.mem_singleton.1 hb ▸ he ▸ ha)⟩
  | join id =>
    refine ⟨?_, nodup, fun id h => by cases h⟩
    show q.ids.Perm ((q.channel.join t).items.map Task.id ++ [id] ++ others)
    rw [Channel.items_join]
    exact perm
  | send task =>
    refine ⟨?_, nodup, fun id h => by cases h⟩
    show q.ids.Perm ((q.channel.items ++ [task]).map Task.id ++ [] ++ others)
    rw [List.map_append, List.append_nil]
    exact perm
  | leave id =>
    refine ⟨?_, nodup, fun id h => by cases h⟩
    show q.ids.Perm ((q.channel.leave t).items.map Task.id ++ [id] ++ others)
    rw [Channel.items_leave]
    exact perm
  | untrack id tracked =>
    have hids : ((Deed.untrack id tracked).onQueue t q).ids = q.ids.filter (· ≠ id) := q.ids_untrack id
    have hmiddle : q.ids.Perm (id :: (q.channel.items.map Task.id ++ others)) :=
      perm.trans (by rw [List.append_assoc]; exact List.perm_middle)
    rw [hids]
    refine ⟨?_, nodup_filter nodup, fun id h => by cases h⟩
    show List.Perm _ (q.channel.items.map Task.id ++ [] ++ others)
    rw [List.append_nil]
    exact filter_perm nodup hmiddle
  | aside haside =>
    rw [Deed.onQueue_of_isAside haside]
    exact ⟨perm, nodup, fun id h => by cases h⟩

private theorem ids_perm_of_holds (h : Worker.Holds held deed held') (fits : deed.Fits t cancelled q)
    (nodup : q.ids.Nodup) {adding others : List Int}
    (perm : q.ids.Perm (q.channel.items.map Task.id ++ adding ++ (held.toList ++ others))) :
    (deed.onQueue t q).ids.Perm
        ((deed.onQueue t q).channel.items.map Task.id ++ adding ++ (held'.toList ++ others)) ∧
      (deed.onQueue t q).ids.Nodup ∧ ∀ id ∈ (deed.onQueue t q).ids, id ∈ q.ids := by
  cases h with
  | queueUp => exact ⟨perm, nodup, fun id h => h⟩
  | turnAway => exact ⟨perm, nodup, fun id h => h⟩
  | take task =>
    obtain ⟨c, hc, hafter⟩ := fits.exists_takeFor
    rw [hafter]
    refine ⟨perm.trans ?_, nodup, fun id h => h⟩
    rw [(Channel.takeFor_spec hc).1, List.map_cons]
    -- the task moves from the front of the channel into the hand
    show List.Perm (task.id :: c.items.map Task.id ++ adding ++ ([] ++ others))
      (c.items.map Task.id ++ adding ++ ([task.id] ++ others))
    rw [List.cons_append, List.cons_append]
    exact List.perm_middle.symm
  | untrack id tracked =>
    have hids : ((Deed.untrack id tracked).onQueue t q).ids = q.ids.filter (· ≠ id) := q.ids_untrack id
    have hmiddle : q.ids.Perm (id :: (q.channel.items.map Task.id ++ adding ++ others)) :=
      perm.trans List.perm_middle
    rw [hids]
    exact ⟨filter_perm nodup hmiddle, nodup_filter nodup, fun id h => (List.mem_filter.1 h).1⟩
  | aside haside =>
    rw [Deed.onQueue_of_isAside haside]
    exact ⟨perm, nodup, fun id h => h⟩

/-- One worker holds what it holds, and the others hold the rest, whatever becomes of that one. -/
private theorem exists_held_set {workers : List Worker} {i : Nat} {w : Worker} (h : workers[i]? = some w) :
    ∃ others, (workers.filterMap Worker.held?).Perm (w.held?.toList ++ others) ∧
      ∀ w', ((workers.set i w').filterMap Worker.held?).Perm (w'.held?.toList ++ others) := by
  induction workers generalizing i with
  | nil => simp at h
  | cons v workers ih =>
    have hcons (v : Worker) (l : List Worker) :
        (v :: l).filterMap Worker.held? = v.held?.toList ++ l.filterMap Worker.held? := by
      cases hv : v.held? <;> simp [hv]
    cases i with
    | zero =>
      obtain rfl : v = w := by simpa using h
      exact ⟨workers.filterMap Worker.held?, .of_eq (hcons v workers), fun w' => .of_eq (hcons w' workers)⟩
    | succ i =>
      obtain ⟨others, hbefore, hafter⟩ := ih (i := i) (by simpa using h)
      have hswap (o : List Int) : (v.held?.toList ++ (o ++ others)).Perm (o ++ (v.held?.toList ++ others)) := by
        rw [← List.append_assoc, ← List.append_assoc]
        exact List.perm_append_comm.append_right _
      refine ⟨v.held?.toList ++ others, ?_, fun w' => ?_⟩
      · rw [hcons]
        exact (hbefore.append_left _).trans (hswap _)
      · rw [List.set_cons_succ, hcons]
        exact ((hafter w').append_left _).trans (hswap _)

variable {x y : Crew}

theorem Agrees.moves (h : x.Agrees s) (m : x.Moves s y) : y.Agrees s := by
  cases m with
  | cancel => exact { h with }
  | dispatch does fits =>
    obtain ⟨hperm, hnodup, hchosen⟩ :=
      ids_perm_of_passes (Dispatcher.passes_of_does does) fits h.nodup h.chosen h.perm
    refine ⟨hperm, hnodup, hchosen, fits.channel h.fits, ?_, h.workers⟩
    rw [Deed.capacity_onQueue]
    exact h.capacity
  | @work i w w' deed here does fits =>
    obtain ⟨others, hbefore, hafter⟩ := exists_held_set here
    obtain ⟨hperm, hnodup, hsub⟩ := ids_perm_of_holds (Worker.holds_of_does does) fits h.nodup
      (h.perm.trans (hbefore.append_left _))
    refine ⟨hperm.trans ((hafter w').symm.append_left _), hnodup, fun id hid hmem => h.chosen id hid (hsub id hmem),
      fits.channel h.fits, ?_, ?_⟩
    · rw [Deed.capacity_onQueue]
      exact h.capacity
    · rw [List.length_set]
      exact h.workers

theorem Reaches.agrees (h : (Crew.start s).Reaches s x) : x.Agrees s := by
  induction h with
  | start => exact agrees_start s
  | step _ m ih => exact ih.moves m

/-! ### What follows from the agreement -/

theorem Agrees.nodup_inFlight (h : x.Agrees s) : x.inFlight.Nodup := h.perm.nodup_iff.1 h.nodup

theorem Agrees.pairwise_held (h : x.Agrees s) :
    x.workers.Pairwise fun w w' => ∀ id, w.held? = some id → w'.held? ≠ some id := by
  have hheld : (x.workers.filterMap Worker.held?).Nodup := h.nodup_inFlight.sublist (List.sublist_append_right _ _)
  refine (List.pairwise_filterMap.1 hheld).imp fun hne id hid hid' => ?_
  exact hne id hid id hid' rfl

theorem Agrees.size_le (h : x.Agrees s) : x.queue.size ≤ max s.queueCapacity 1 + 1 + s.workers := by
  have hsize : x.queue.size = x.inFlight.length := by
    rw [← h.perm.length_eq]
    exact (List.length_map _).symm
  have hitems : x.queue.channel.items.length ≤ max s.queueCapacity 1 := by
    have hle := h.fits.buffered_le
    rw [h.capacity] at hle
    unfold Channel.buffered at hle
    omega
  have hadding : x.dispatcher.adding?.toList.length ≤ 1 := by
    cases x.dispatcher.adding? with
    | none => exact Nat.zero_le _
    | some id => exact Nat.le_refl _
  have hheld : (x.workers.filterMap Worker.held?).length ≤ s.workers := by
    rw [← h.workers]
    exact List.length_filterMap_le _ _
  rw [hsize]
  unfold inFlight
  rw [List.length_append, List.length_append, List.length_map]
  omega

/-- **Main theorem.**  Whatever a crew does and whatever the store answers, the tasks that the queue tracks are those in
the channel, the one that the dispatcher is just adding, and those that workers have received and not struck off; none
of them is there twice.  So no two workers hold the same task, and there are never more than fit into the channel and
the hands of the crew. -/
theorem Reaches.in_flight_once (h : (Crew.start s).Reaches s x) :
    x.queue.ids.Perm x.inFlight ∧ x.inFlight.Nodup ∧
      (x.workers.Pairwise fun w w' => ∀ id, w.held? = some id → w'.held? ≠ some id) ∧
      x.queue.size ≤ max s.queueCapacity 1 + 1 + s.workers :=
  have hagrees := h.agrees
  ⟨hagrees.perm, hagrees.nodup_inFlight, hagrees.pairwise_held, hagrees.size_le⟩

/-- A task is listed, put into the queue and received by the first worker, which is the only one to hold it. -/
theorem in_flight_once_of_received : ∃ x : Crew, x.workers[0]? = some (.accepted default) ∧
    x.queue.ids.Perm x.inFlight ∧ x.inFlight.Nodup ∧
      (x.workers.Pairwise fun w w' => ∀ id, w.held? = some id → w'.held? ≠ some id) ∧
      x.queue.size ≤ max Settings.standard.queueCapacity 1 + 1 + Settings.standard.workers := by
  have goes {d d' : Dispatcher} (deed : Deed)
      (h : (start .standard).Reaches .standard ⟨.empty 100, false, d, List.replicate 4 .idle⟩)
      (does : (d.next .standard).Does d deed d') (aside : deed.isAside = true)
      (fits : deed.Fits 0 false (.empty 100)) :
      (start .standard).Reaches .standard ⟨.empty 100, false, d', List.replicate 4 .idle⟩ := by
    have hstep := h.step (.dispatch does fits)
    rwa [Deed.onQueue_of_isAside aside] at hstep
  have htimes := goes (.showRunning true) .start .showRunning rfl trivial
  have hwaits := goes (.readClock ⟨0⟩) htimes (.readClock _) rfl trivial
  have hreclaims := goes (.wake ⟨0⟩) hwaits (.wake _) rfl trivial
  have hdates := goes (.ask (.listByStatus .processing) (.ok [])) hreclaims (.ask _) rfl trivial
  have hpolls := goes (.record .poll) (goes (.readWallClock default) hdates (.readWallClock _) rfl trivial) .record rfl
    trivial
  have hlists := goes (.ask (.listByStatus .pending) (.ok [default])) hpolls (.ask _) rfl trivial
  have hchooses := goes (.look (default : Task).id false) hlists (.look _) rfl rfl
  have htracks := hchooses.step (.dispatch (.track default) trivial)
  have hsends := (htracks.step (.dispatch .join ⟨rfl, List.not_mem_nil⟩)).step (.dispatch .send rfl)
  have hqueues := hsends.step (.work (i := 0) rfl .queueUp List.not_mem_nil)
  have hreceives := hqueues.step (.work (i := 0) rfl (.take default) rfl)
  exact ⟨_, rfl, hreceives.in_flight_once⟩

end Crew

end Backlog.Dispatch

import Backlog.Proofs.Dispatch.Receipts
import Mathlib.Logic.ExistsUnique

/-!
# What the counters of a crew add up to

A crew at work keeps its counters and its receipts.  The store may answer any call in any way, the token may fire at any
moment, and a machine may break down wherever it waits, be it that a call of the store panics or that its loop is
aborted.

Key facts: the dispatcher has counted what it has handed over, but for what it still owes (`Dispatcher.Counts`), and
what the workers have counted stands on the receipts.  So the counters add up (`Shift.Reaches.accounted`).
-/

namespace Backlog.Dispatch

/-! ### A shift -/

/-- A crew at work, with its counters and its receipts, the oldest first. -/
structure Shift where
  crew : Crew
  tally : Tally
  receipts : List Receipt

namespace Shift

def start (s : Settings) : Shift := ⟨.start s, .empty, []⟩

/-- What may happen next: the token fires, one of the machines does something, or one of them breaks down where it
waits, and leaves the channel. -/
inductive Moves (s : Settings) (x : Shift) : Shift → Prop where
  | cancel : Moves s x { x with crew := { x.crew with cancelled := true } }
  | dispatch {deed : Deed} {d : Dispatcher} (does : (x.crew.dispatcher.next s).Does x.crew.dispatcher deed d)
      (fits : deed.Fits 0 x.crew.cancelled x.crew.queue) :
    Moves s x
      { x with
        crew := { x.crew with dispatcher := d, queue := deed.onQueue 0 x.crew.queue }
        tally := deed.onTally x.tally }
  | work {i : Nat} {w w' : Worker} {deed : Deed} (here : x.crew.workers[i]? = some w) (does : (w.next s).Does w deed w')
      (fits : deed.Fits (i + 1) x.crew.cancelled x.crew.queue) :
    Moves s x
      { crew := { x.crew with workers := x.crew.workers.set i w', queue := deed.onQueue (i + 1) x.crew.queue }
        tally := deed.onTally x.tally
        receipts := deed.onReceipts (i + 1) x.receipts }
  | dispatcherBreaks (waits : (x.crew.dispatcher.next s).isWait = true) :
    Moves s x
      { x with crew := { x.crew with dispatcher := .stopped, queue := Deed.leave.onQueue 0 x.crew.queue } }
  | workerBreaks {i : Nat} {w : Worker} (here : x.crew.workers[i]? = some w) (waits : (w.next s).isWait = true) :
    Moves s x
      { x with
        crew := { x.crew with
          workers := x.crew.workers.set i .stopped, queue := Deed.turnAway.onQueue (i + 1) x.crew.queue }
        receipts := Receipt.amend (i + 1) (fun r => { r with fate := .lost }) x.receipts }

/-- What can come of a shift. -/
inductive Reaches (s : Settings) (x₀ : Shift) : Shift → Prop where
  | start : Reaches s x₀ x₀
  | step {x y : Shift} (h : Reaches s x₀ x) (m : x.Moves s y) : Reaches s x₀ y

end Shift

/-! ### What the dispatcher counts -/

namespace Dispatcher

/-- The tasks that the dispatcher has handed over and not counted yet. -/
def owes : Dispatcher → Nat
  | polling _ (.counting _ _) => 1
  | _ => 0

/-- The polls that the dispatcher has counted and that may still fail. -/
def exposed : Dispatcher → Nat
  | polling _ .listing => 1
  | polling _ (.failing _) => 1
  | _ => 0

/-- What becomes of what the dispatcher owes and of the poll that may fail with what it does. -/
inductive Counts : Nat → Nat → Deed → Nat → Nat → Prop where
  | begin : Counts 0 0 (.record .poll) 0 1
  | fail : Counts 0 1 (.record .pollError) 0 0
  | send (task : Task) : Counts 0 0 (.send task) 1 0
  | count : Counts 1 0 (.record .enqueued) 0 0
  | retire (s : Settings) (task : Task) : Counts 0 0 (.record (Retirement.count s task)) 0 0
  | withdraw (id : Int) (tracked : Bool) : Counts 0 0 (.untrack id tracked) 0 0
  | unbooked {deed : Deed} {exposed exposed' : Nat} (h : deed.isUnbooked = true) (le : exposed' ≤ exposed) :
    Counts 0 exposed deed 0 exposed'

variable {s : Settings} {deed : Deed} {d d' : Dispatcher}

private theorem nothing_due_onward (due : Instant) (count : Nat) (rest : List Task) :
    (afterPoll due (Poll.onward count rest)).owes = 0 ∧ (afterPoll due (Poll.onward count rest)).exposed = 0 := by
  cases rest <;> exact ⟨rfl, rfl⟩

/-- A retirement counts what it has moved and nothing else. -/
private theorem counts_of_retirement {task : Task} {stage stage' : Retirement}
    (h : (stage.next s task).Does stage deed stage') : Counts 0 0 deed 0 0 := by
  cases stage with
  | counting =>
    cases h
    exact .retire s task
  | _ =>
    cases h <;> exact .unbooked rfl (Nat.le_refl 0)

private theorem counts_of_reclaim {threshold : Duration} {pass pass' : Reclaim}
    (h : (pass.next s threshold).Does pass deed pass') : Counts 0 0 deed 0 0 := by
  cases pass with
  | retiring now task rest count stage =>
    obtain ⟨stage', hdoes, -⟩ := Reclaim.does_retiring h
    exact counts_of_retirement hdoes
  | _ => cases h <;> exact .unbooked rfl (Nat.le_refl 0)

private theorem counts_of_poll (due : Instant) {poll poll' : Poll} (h : (poll.next s).Does poll deed poll') :
    Counts (polling due poll).owes (polling due poll).exposed deed (afterPoll due poll').owes
      (afterPoll due poll').exposed := by
  have onwards {exposed : Nat} (hdeed : Counts 0 exposed deed 0 0) (count : Nat) (rest : List Task) :
      Counts 0 exposed deed (afterPoll due (Poll.onward count rest)).owes
        (afterPoll due (Poll.onward count rest)).exposed := by
    obtain ⟨howes, hexposed⟩ := nothing_due_onward due count rest
    rwa [howes, hexposed]
  cases poll with
  | starting =>
    cases h
    exact .begin
  | listing =>
    cases h with
    | ask result =>
      cases result with
      | ok tasks => exact onwards (.unbooked rfl (Nat.zero_le 1)) 0 tasks
      | error e => exact .unbooked rfl (Nat.le_refl 1)
    | drop hy =>
      cases hy
      exact .unbooked rfl (Nat.zero_le 1)
  | failing e =>
    cases h
    exact .fail
  | checking task rest count =>
    cases h with
    | look tracked =>
      have hsame : Counts 0 0 (.look task.id tracked) 0 0 := .unbooked rfl (Nat.le_refl 0)
      unfold Poll.afterCheck
      split
      · exact onwards hsame count rest
      · split <;> exact hsame
  | retiring task rest count stage =>
    obtain ⟨stage', hdoes, rfl⟩ := Poll.does_retiring h
    have hcounts := counts_of_retirement hdoes
    cases stage' with
    | done moved => exact onwards hcounts count rest
    | _ => exact hcounts
  | enqueueing task rest count stage =>
    obtain ⟨stage', hdoes, rfl⟩ := Poll.does_enqueueing h
    cases stage with
    | sending =>
      cases hdoes with
      | send => exact .send task
      | join => exact .unbooked rfl (Nat.le_refl 0)
      | leave hy =>
        cases hy
        exact .unbooked rfl (Nat.le_refl 0)
    | tracking =>
      cases hdoes
      exact .unbooked rfl (Nat.le_refl 0)
    | withdrawing =>
      cases hdoes with
      | untrack tracked => exact .withdraw task.id tracked
    | done sent => cases hdoes
  | counting rest count =>
    cases h
    obtain ⟨howes, hexposed⟩ := nothing_due_onward due count rest
    rw [howes, hexposed]
    exact .count
  | done result => cases h

theorem counts_of_does (h : (d.next s).Does d deed d') : Counts d.owes d.exposed deed d'.owes d'.exposed := by
  cases d with
  | reclaiming due threshold pass =>
    obtain ⟨pass', hdoes, rfl⟩ := does_reclaiming h
    have hcounts := counts_of_reclaim hdoes
    cases pass' <;> exact hcounts
  | polling due poll =>
    obtain ⟨poll', hdoes, rfl⟩ := does_polling h
    exact counts_of_poll due hdoes
  | waiting first due =>
    cases h with
    | wake moment => exact .unbooked rfl (Nat.le_refl 0)
    | rise hy =>
      cases hy
      exact .unbooked rfl (Nat.le_refl 0)
  | stopped => cases h
  | _ =>
    cases h
    exact .unbooked rfl (Nat.le_refl 0)

section

variable {owes exposed owes' exposed' : Nat} (h : Counts owes exposed deed owes' exposed')
include h

/-- What is handed over goes into the channel, and is counted or owed. -/
theorem Counts.handed (tally : Tally) (q : Queue) :
    (deed.onTally tally).enqueued + owes' + q.channel.items.length
      = tally.enqueued + owes + (deed.onQueue 0 q).channel.items.length := by
  cases h with
  | send task =>
    show tally.enqueued + 1 + q.channel.items.length = tally.enqueued + 0 + (q.channel.items ++ [task]).length
    rw [List.length_append, List.length_singleton]
    omega
  | count => rfl
  | retire s task =>
    unfold Retirement.count
    split <;> rfl
  | unbooked hsame =>
    rw [Deed.onTally_of_isUnbooked hsame, Deed.items_of_isUnbooked hsame]
  | _ => rfl

theorem Counts.polls {tally : Tally} (le : tally.pollErrors + exposed ≤ tally.polls) :
    (deed.onTally tally).pollErrors + exposed' ≤ (deed.onTally tally).polls := by
  cases h with
  | begin =>
    show tally.pollErrors + 1 ≤ tally.polls + 1
    omega
  | retire s task =>
    unfold Retirement.count
    split <;> exact le
  | unbooked hsame hle =>
    rw [Deed.onTally_of_isUnbooked hsame]
    omega
  | _ => exact le

/-- The dispatcher counts nothing that a worker counts. -/
theorem Counts.marks (tally : Tally) :
    (∀ mark : Count, mark.isMark = true → (deed.onTally tally).number mark = tally.number mark) ∧
      (deed.onTally tally).workCount = tally.workCount ∧ (deed.onTally tally).completed = tally.completed := by
  have recorded (count : Count) (hcount : count.isMark = false) (mark : Count) (hmark : mark.isMark = true) :
      (tally.record count).number mark = tally.number mark := by
    rw [tally.number_record count hmark, if_neg, Nat.add_zero]
    rintro rfl
    rw [hmark] at hcount
    cases hcount
  cases h with
  | begin => exact ⟨recorded _ rfl, rfl, rfl⟩
  | fail => exact ⟨recorded _ rfl, rfl, rfl⟩
  | count => exact ⟨recorded _ rfl, rfl, rfl⟩
  | retire s task =>
    unfold Retirement.count
    split <;> exact ⟨recorded _ rfl, rfl, rfl⟩
  | unbooked hsame =>
    rw [Deed.onTally_of_isUnbooked hsame]
    exact ⟨fun mark hmark => rfl, rfl, rfl⟩
  | _ => exact ⟨fun mark hmark => rfl, rfl, rfl⟩

end

/-- Nothing is owed where the dispatcher waits. -/
theorem owes_of_isWait (h : (d.next s).isWait = true) : d.owes = 0 := by
  cases d with
  | polling due poll =>
    cases poll with
    | counting rest count => cases h
    | _ => rfl
  | _ => rfl

end Dispatcher

/-! ### The balance -/

namespace Shift

open Receipt

/-- The counters of a shift agree with the channel and the receipts, and the receipts with the hands of the workers. -/
structure Balanced (x : Shift) : Prop where
  handed : x.tally.enqueued + x.crew.dispatcher.owes = x.receipts.length + x.crew.queue.channel.items.length
  polls : x.tally.pollErrors + x.crew.dispatcher.exposed ≤ x.tally.polls
  marks : ∀ mark : Count, mark.isMark = true → x.tally.number mark = x.receipts.countP (hasCounted mark)
  worked : x.tally.workCount = x.tally.completed + x.crew.workers.countP Worker.isCounting
  hands : ∀ i w, x.crew.workers[i]? = some w → Hand (i + 1) x.crew.cancelled x.receipts w.hand?
  holders : ∀ r ∈ x.receipts, ∃ i w, r.holder = i + 1 ∧ x.crew.workers[i]? = some w
  ended : AllEnded x.crew.cancelled x.receipts

variable {s : Settings} {x y : Shift}

theorem balanced_start (s : Settings) : (start s).Balanced where
  handed := rfl
  polls := Nat.le_refl 0
  marks mark _ := by cases mark <;> rfl
  worked := by
    show 0 = 0 + (List.replicate s.workers Worker.idle).countP Worker.isCounting
    simp [List.countP_replicate, Worker.isCounting]
  hands i w hw := by
    have hidle : w = .idle := List.eq_of_mem_replicate (List.mem_of_getElem? hw)
    subst hidle
    exact fun r hr => nomatch hr
  holders r hr := nomatch hr
  ended r hr := nomatch hr

private theorem isCounting_eq_ite (w : Worker) :
    (if w.isCounting = true then 1 else 0) = if w.hand?.map Prod.snd = some Page.worked then 1 else 0 := by
  by_cases h : w.isCounting = true
  · rw [if_pos h, if_pos (w.isCounting_iff.1 h)]
  · rw [if_neg h, if_neg fun h' => h (w.isCounting_iff.2 h')]

/-- The workers that count, when one of them has become another. -/
private theorem countP_set {workers : List Worker} {i : Nat} {w : Worker} (here : workers[i]? = some w) (w' : Worker) :
    (workers.set i w').countP Worker.isCounting + (if w.isCounting = true then 1 else 0)
      = workers.countP Worker.isCounting + if w'.isCounting = true then 1 else 0 := by
  induction workers generalizing i with
  | nil => simp at here
  | cons v workers ih =>
    cases i with
    | zero =>
      obtain rfl : v = w := by simpa using here
      rw [List.set_cons_zero, List.countP_cons, List.countP_cons]
      omega
    | succ i =>
      have hrest := ih (i := i) (by simpa using here)
      rw [List.set_cons_succ, List.countP_cons, List.countP_cons]
      omega

theorem Balanced.cancel (h : x.Balanced) : Balanced { x with crew := { x.crew with cancelled := true } } :=
  { h with
    hands := fun i w hw => by
      have hhand := h.hands i w hw
      cases hcancelled : x.crew.cancelled with
      | true => rwa [hcancelled] at hhand
      | false =>
        rw [hcancelled] at hhand
        exact hhand.of_cancel
    ended := fun r hr hfate => by
      obtain ⟨e, hcounts, -⟩ := h.ended r hr hfate
      exact ⟨e, hcounts, fun _ _ => rfl⟩ }

theorem Balanced.dispatch (h : x.Balanced) {deed : Deed} {d : Dispatcher}
    (does : (x.crew.dispatcher.next s).Does x.crew.dispatcher deed d) :
    Balanced
      { x with
        crew := { x.crew with dispatcher := d, queue := deed.onQueue 0 x.crew.queue }
        tally := deed.onTally x.tally } := by
  have hcounts := Dispatcher.counts_of_does does
  have hhanded := hcounts.handed x.tally x.crew.queue
  obtain ⟨hmarks, hwork, hcompleted⟩ := hcounts.marks x.tally
  refine ⟨?_, hcounts.polls h.polls, fun mark hmark => ?_, ?_, h.hands, h.holders, h.ended⟩
  · have hbefore := h.handed
    simp only
    omega
  · rw [hmarks mark hmark]
    exact h.marks mark hmark
  · simp only [hwork, hcompleted]
    exact h.worked

/-- Whoever becomes of a worker stands where that one stood. -/
private theorem exists_at_set {workers : List Worker} (i : Nat)
    (w' : Worker) {j : Nat} {v : Worker} (h : workers[j]? = some v) : ∃ v', (workers.set i w')[j]? = some v' := by
  have hlt : j < (workers.set i w').length := by
    rw [List.length_set]
    exact (List.getElem?_eq_some_iff.1 h).1
  exact ⟨_, List.getElem?_eq_getElem hlt⟩

/-- The hands of all workers, when one of them has become another. -/
private theorem hands_set {workers : List Worker} {i : Nat} {w' : Worker} {cancelled : Bool} {rs rs' : List Receipt}
    (hands : ∀ j v, workers[j]? = some v → Hand (j + 1) cancelled rs v.hand?)
    (own : Hand (i + 1) cancelled rs' w'.hand?)
    (others : ∀ j hand, j + 1 ≠ i + 1 → Hand (j + 1) cancelled rs hand → Hand (j + 1) cancelled rs' hand) :
    ∀ j v, (workers.set i w')[j]? = some v → Hand (j + 1) cancelled rs' v.hand? := by
  intro j v hv
  rw [List.getElem?_set] at hv
  by_cases hj : i = j
  · subst hj
    rw [if_pos rfl] at hv
    split at hv
    · cases hv
      exact own
    · cases hv
  · rw [if_neg hj] at hv
    exact others j _ (fun he => hj (Nat.succ.inj he).symm) (hands j v hv)

private theorem exists_holder_amend {t : Ticket} {f : Receipt → Receipt} {rs : List Receipt} {p : Ticket → Prop}
    (h : ∀ r ∈ rs, p r.holder) (hf : ∀ r, (f r).holder = r.holder) : ∀ r ∈ amend t f rs, p r.holder := by
  intro r hr
  obtain ⟨r₀, hr₀, rfl⟩ := List.mem_map.1 hr
  split
  · rw [hf]
    exact h r₀ hr₀
  · exact h r₀ hr₀

private theorem exists_holder_onReceipts {t : Ticket} {deed : Deed} {rs : List Receipt} {p : Ticket → Prop}
    (h : ∀ r ∈ rs, p r.holder) (ht : p t) : ∀ r ∈ deed.onReceipts t rs, p r.holder := by
  cases deed with
  | take task =>
    intro r hr
    rcases List.mem_append.1 hr with hold | hnew
    · exact h r hold
    · rw [List.mem_singleton.1 hnew]
      exact ht
  | record count => exact exists_holder_amend h fun r => rfl
  | untrack id tracked => exact exists_holder_amend h fun r => rfl
  | _ => exact h

theorem Balanced.work (h : x.Balanced) {i : Nat} {w w' : Worker} {deed : Deed} (here : x.crew.workers[i]? = some w)
    (does : (w.next s).Does w deed w') (fits : deed.Fits (i + 1) x.crew.cancelled x.crew.queue) :
    Balanced
      { crew := { x.crew with workers := x.crew.workers.set i w', queue := deed.onQueue (i + 1) x.crew.queue }
        tally := deed.onTally x.tally
        receipts := deed.onReceipts (i + 1) x.receipts } := by
  have hturns := Worker.turns_hand does
  have hhand := h.hands i w here
  obtain ⟨henqueued, hpolls, herrors⟩ := hturns.numbers x.tally
  have hlength := length_onReceipts hturns fits x.receipts
  have hwork := hturns.workCount x.tally
  have hcounting := countP_set here w'
  rw [isCounting_eq_ite, isCounting_eq_ite] at hcounting
  refine ⟨?_, ?_, fun mark hmark => countP_onReceipts hhand hturns hmark (h.marks mark hmark), ?_, ?_, ?_,
    h.ended.of_turns hhand hturns⟩
  · have hbefore := h.handed
    simp only [henqueued]
    omega
  · simp only [hpolls, herrors]
    exact h.polls
  · have hbefore := h.worked
    simp only
    omega
  · exact hands_set h.hands (hhand.of_turns hturns fits) fun j hand hj hother => hother.of_other hj
  · have hstand : ∀ r ∈ x.receipts, ∃ j v, r.holder = j + 1 ∧ (x.crew.workers.set i w')[j]? = some v := by
      intro r hr
      obtain ⟨j, v, hholder, hv⟩ := h.holders r hr
      obtain ⟨v', hv'⟩ := exists_at_set i w' hv
      exact ⟨j, v', hholder, hv'⟩
    obtain ⟨v, hv⟩ := exists_at_set i w' here
    exact exists_holder_onReceipts (p := fun t => ∃ j v, t = j + 1 ∧ (x.crew.workers.set i w')[j]? = some v) hstand
      ⟨i, v, rfl, hv⟩

theorem Balanced.dispatcherBreaks (h : x.Balanced) (waits : (x.crew.dispatcher.next s).isWait = true) :
    Balanced { x with crew := { x.crew with dispatcher := .stopped, queue := Deed.leave.onQueue 0 x.crew.queue } } := by
  have hitems : (Deed.leave.onQueue 0 x.crew.queue).channel.items = x.crew.queue.channel.items :=
    Channel.items_leave _ _
  have howes := Dispatcher.owes_of_isWait waits
  refine ⟨?_, Nat.le_trans (Nat.le_add_right _ _) h.polls, h.marks, h.worked, h.hands, h.holders, h.ended⟩
  have hbefore := h.handed
  rw [howes] at hbefore
  simp only [hitems]
  exact hbefore

theorem Balanced.workerBreaks (h : x.Balanced) {i : Nat} {w : Worker} (here : x.crew.workers[i]? = some w)
    (waits : (w.next s).isWait = true) :
    Balanced
      { x with
        crew := { x.crew with
          workers := x.crew.workers.set i .stopped, queue := Deed.turnAway.onQueue (i + 1) x.crew.queue }
        receipts := amend (i + 1) (fun r => { r with fate := .lost }) x.receipts } := by
  have hhand := h.hands i w here
  have hidle := Worker.isCounting_of_isWait waits
  have hcounting := countP_set here .stopped
  refine ⟨?_, h.polls, fun mark hmark => ?_, ?_, ?_, ?_, ?_⟩
  · show x.tally.enqueued + _ = (x.receipts.map _).length + x.crew.queue.channel.items.length
    rw [List.length_map]
    exact h.handed
  · show x.tally.number mark = (x.receipts.map _).countP (hasCounted mark)
    rw [h.marks mark hmark, List.countP_map]
    refine List.countP_congr fun r _ => ?_
    simp only [Function.comp_apply]
    split <;> rfl
  · have hbefore := h.worked
    rw [hidle] at hcounting
    simp only [Worker.isCounting, Bool.false_eq_true, if_false] at hcounting ⊢
    omega
  · refine hands_set h.hands ?_ fun j hand hj hother => hother.amend_of_ne hj fun r => rfl
    show Hand (i + 1) x.crew.cancelled _ none
    cases hhand? : w.hand? with
    | none =>
      rw [hhand?] at hhand
      rwa [amend_of_none hhand]
    | some page =>
      rw [hhand?] at hhand
      exact hhand.amend_fate (by decide)
  · refine exists_holder_amend (p := fun t => ∃ j v, t = j + 1 ∧ (x.crew.workers.set i .stopped)[j]? = some v)
      (fun r hr => ?_) fun r => rfl
    obtain ⟨j, v, hholder, hv⟩ := h.holders r hr
    obtain ⟨v', hv'⟩ := exists_at_set i .stopped hv
    exact ⟨j, v', hholder, hv'⟩
  · refine h.ended.of_loss hhand fun hpage => ?_
    rw [(w.isCounting_iff).2 hpage] at hidle
    cases hidle

theorem Balanced.moves (h : x.Balanced) (m : x.Moves s y) : y.Balanced := by
  cases m with
  | cancel => exact h.cancel
  | dispatch does => exact h.dispatch does
  | work here does fits => exact h.work here does fits
  | dispatcherBreaks waits => exact h.dispatcherBreaks waits
  | workerBreaks here waits => exact h.workerBreaks here waits

theorem Reaches.balanced (h : (Shift.start s).Reaches s x) : x.Balanced := by
  induction h with
  | start => exact balanced_start s
  | step _ m ih => exact ih.moves m

/-! ### What follows from the balance -/

/-- A task that is still in hand is in the hand of the worker that has received it, and on its receipt stands what its
page says. -/
theorem Balanced.exists_hand (h : x.Balanced) {r : Receipt} (hr : r ∈ x.receipts) (held : r.fate = .held) :
    ∃ i w page, r.holder = i + 1 ∧ x.crew.workers[i]? = some w ∧ w.hand? = some (r.task.id, page) ∧
      page.Shows x.crew.cancelled r.counts := by
  obtain ⟨i, w, hholder, here⟩ := h.holders r hr
  have hheld : r.isHeldBy (i + 1) = true := by simp [isHeldBy, held, hholder]
  have hhand := h.hands i w here
  cases hhand? : w.hand? with
  | none =>
    rw [hhand?] at hhand
    rw [hhand r hr] at hheld
    cases hheld
  | some page =>
    obtain ⟨id, page⟩ := page
    rw [hhand?] at hhand
    obtain ⟨r', hsole, rfl, hshows⟩ := hhand
    obtain rfl := hsole.eq_of_mem hr hheld
    exact ⟨i, w, page, hholder, here, hhand?, hshows⟩

/-- A task is claimed before it is completed, and it is not abandoned then. -/
theorem Balanced.marks_of_completed (h : x.Balanced) {r : Receipt} (hr : r ∈ x.receipts)
    (completed : hasCounted .completed r = true) :
    hasCounted .claimed r = true ∧ hasCounted .abandoned r = false := by
  have ended (e : Exit) (hcounts : r.counts = e.counts) :
      hasCounted .claimed r = true ∧ hasCounted .abandoned r = false := by
    unfold hasCounted at completed ⊢
    rw [hcounts] at completed ⊢
    cases e <;> simp_all [Exit.counts]
  by_cases held : r.fate = .held
  · obtain ⟨i, w, page, -, -, -, hshows⟩ := h.exists_hand hr held
    cases page with
    | blank =>
      have hcounts : r.counts = [] := hshows
      simp [hasCounted, hcounts] at completed
    | claimed =>
      have hcounts : r.counts = [.claimed] := hshows
      simp [hasCounted, hcounts] at completed
    | worked =>
      obtain ⟨elapsed, hcounts⟩ := hshows
      simp [hasCounted, hcounts] at completed
    | full =>
      obtain ⟨e, hcounts, -⟩ := hshows
      exact ended e hcounts
  · obtain ⟨e, hcounts, -⟩ := h.ended r hr held
    exact ended e hcounts

theorem Balanced.completed_le (h : x.Balanced) : x.tally.completed ≤ x.tally.claimed := by
  have hcompleted : x.tally.completed = x.receipts.countP (hasCounted .completed) := h.marks .completed rfl
  have hclaimed : x.tally.claimed = x.receipts.countP (hasCounted .claimed) := h.marks .claimed rfl
  rw [hcompleted, hclaimed]
  exact List.countP_mono_left fun r hr hcounted => (h.marks_of_completed hr hcounted).1

theorem Balanced.claimed_le (h : x.Balanced) : x.tally.claimed ≤ x.receipts.length := by
  have hclaimed : x.tally.claimed = x.receipts.countP (hasCounted .claimed) := h.marks .claimed rfl
  rw [hclaimed]
  exact List.countP_le_length

/-- No task is both completed and abandoned. -/
theorem Balanced.completed_add_abandoned_le (h : x.Balanced) :
    x.tally.completed + x.tally.abandoned ≤ x.receipts.length := by
  have hcompleted : x.tally.completed = x.receipts.countP (hasCounted .completed) := h.marks .completed rfl
  have habandoned : x.tally.abandoned = x.receipts.countP (hasCounted .abandoned) := h.marks .abandoned rfl
  have hrest : x.receipts.countP (hasCounted .abandoned) ≤ x.receipts.countP fun r => ¬ hasCounted .completed r :=
    List.countP_mono_left fun r hr hcounted => by
      have hnot : hasCounted .completed r ≠ true := fun hcompleted => by
        rw [(h.marks_of_completed hr hcompleted).2] at hcounted
        cases hcounted
      simpa using hnot
  rw [hcompleted, habandoned, List.length_eq_countP_add_countP (hasCounted .completed)]
  exact Nat.add_le_add_left hrest _

theorem Balanced.workCount_eq (h : x.Balanced) (none : ∀ w ∈ x.crew.workers, w.isCounting = false) :
    x.tally.workCount = x.tally.completed := by
  have hzero : x.crew.workers.countP Worker.isCounting = 0 := by
    rw [List.countP_eq_zero]
    intro w hw
    rw [none w hw]
    exact Bool.false_ne_true
  have hworked := h.worked
  omega

/-- A task that is not in hand any more has ended in exactly one way. -/
theorem Balanced.exists_unique_exit (h : x.Balanced) {r : Receipt} (hr : r ∈ x.receipts) (gone : r.fate ≠ .held) :
    ∃! e : Exit, r.counts = e.counts ∧ (r.fate = .struckOff → e = .left → x.crew.cancelled = true) := by
  obtain ⟨e, hcounts, hleft⟩ := h.ended r hr gone
  refine ⟨e, ⟨hcounts, hleft⟩, fun e' he' => ?_⟩
  exact Exit.counts_injective (he'.1.symm.trans hcounts)

/-- **Main theorem.**  Whatever a crew does, whatever the store answers, whenever the token fires, and whoever breaks
down: as long as the dispatcher does not owe the count of a task, it has counted as many as the workers have received
and the channel holds; no more tasks are completed than claimed, nor claimed than received, and none is both completed
and abandoned; unless a worker is just counting, as many working times are summed as tasks are completed; and no more
polls fail than are made.  What the workers count stands on the receipts, and every task that was received is in hand or
has ended in exactly one of five ways. -/
theorem Reaches.accounted (h : (Shift.start s).Reaches s x) :
    (x.crew.dispatcher.owes = 0 →
      x.tally.enqueued = x.receipts.length + x.crew.queue.channel.items.length) ∧
    x.tally.completed ≤ x.tally.claimed ∧ x.tally.claimed ≤ x.receipts.length ∧
    x.tally.completed + x.tally.abandoned ≤ x.receipts.length ∧
    ((∀ w ∈ x.crew.workers, w.isCounting = false) → x.tally.workCount = x.tally.completed) ∧
    x.tally.pollErrors ≤ x.tally.polls ∧
    (∀ mark : Count, mark.isMark = true → x.tally.number mark = x.receipts.countP (hasCounted mark)) ∧
    ∀ r ∈ x.receipts,
      (r.fate = .held ∧ ∃ i w, r.holder = i + 1 ∧ x.crew.workers[i]? = some w ∧ w.held? = some r.task.id) ∨
      (r.fate ≠ .held ∧
        ∃! e : Exit, r.counts = e.counts ∧ (r.fate = .struckOff → e = .left → x.crew.cancelled = true)) := by
  have hbalanced := h.balanced
  refine ⟨fun howes => ?_, hbalanced.completed_le, hbalanced.claimed_le, hbalanced.completed_add_abandoned_le,
    hbalanced.workCount_eq, Nat.le_trans (Nat.le_add_right _ _) hbalanced.polls, hbalanced.marks, fun r hr => ?_⟩
  · have hhanded := hbalanced.handed
    rwa [howes] at hhanded
  · by_cases held : r.fate = .held
    · obtain ⟨i, w, page, hholder, here, hhand?, -⟩ := hbalanced.exists_hand hr held
      refine .inl ⟨held, i, w, hholder, here, ?_⟩
      rw [w.held?_eq, hhand?]
      rfl
    · exact .inr ⟨held, hbalanced.exists_unique_exit hr held⟩

/-- A task is handed over and counted, and a worker that finds it gone skips it. -/
theorem accounted_of_skipped : ∃ x : Shift, (start .standard).Reaches .standard x ∧ x.tally.enqueued = 1 ∧
    x.receipts.length + x.crew.queue.channel.items.length = 1 ∧
    ∃ r ∈ x.receipts, r.fate = .struckOff ∧
      ∃! e : Exit, r.counts = e.counts ∧ (r.fate = .struckOff → e = .left → x.crew.cancelled = true) := by
  let task : Task := default
  have goes {d d' : Dispatcher} {tally : Tally} (deed : Deed)
      (h : (start .standard).Reaches .standard ⟨⟨.empty 100, false, d, List.replicate 4 .idle⟩, tally, []⟩)
      (does : (d.next .standard).Does d deed d') (aside : deed.isAside = true)
      (fits : deed.Fits 0 false (.empty 100)) :
      (start .standard).Reaches .standard
        ⟨⟨.empty 100, false, d', List.replicate 4 .idle⟩, deed.onTally tally, []⟩ := by
    have hstep := h.step (.dispatch does fits)
    rwa [Deed.onQueue_of_isAside aside] at hstep
  have htimes := goes (.showRunning true) .start .showRunning rfl trivial
  have hwaits := goes (.readClock ⟨0⟩) htimes (.readClock _) rfl trivial
  have hreclaims := goes (.wake ⟨0⟩) hwaits (.wake _) rfl trivial
  have hdates := goes (.ask (.listByStatus .processing) (.ok [])) hreclaims (.ask _) rfl trivial
  have hpolls := goes (.record .poll) (goes (.readWallClock default) hdates (.readWallClock _) rfl trivial) .record rfl
    trivial
  have hlists := goes (.ask (.listByStatus .pending) (.ok [task])) hpolls (.ask _) rfl trivial
  have hchooses := goes (.look task.id false) hlists (.look _) rfl rfl
  obtain ⟨x, hreaches, henqueued, hreceipts, howes⟩ : ∃ x : Shift, (start .standard).Reaches .standard x ∧
      x.tally.enqueued = 1 ∧ x.receipts = [⟨1, task, [], .struckOff⟩] ∧ x.crew.dispatcher.owes = 0 := by
    have htracks := hchooses.step (.dispatch (.track default) trivial)
    have hsends := (htracks.step (.dispatch .join ⟨rfl, List.not_mem_nil⟩)).step (.dispatch .send rfl)
    have hcounts := hsends.step (.dispatch .record trivial)
    have hreceives := (hcounts.step (.work (i := 0) rfl .queueUp List.not_mem_nil)).step
      (.work (i := 0) rfl (.take task) rfl)
    have hclaims := hreceives.step (.work (i := 0) rfl (.readWallClock default) trivial)
    have hgone := hclaims.step (.work (i := 0) rfl (.ask (.error (.notFound task.id))) trivial)
    exact ⟨_, hgone.step (.work (i := 0) rfl (.untrack true) rfl), rfl, rfl, rfl⟩
  obtain ⟨hhanded, -, -, -, -, -, -, hall⟩ := hreaches.accounted
  have hmem : (⟨1, task, [], .struckOff⟩ : Receipt) ∈ x.receipts := by
    rw [hreceipts]
    exact List.mem_singleton_self _
  refine ⟨x, hreaches, henqueued, (hhanded howes).symm.trans henqueued, _, hmem, rfl, ?_⟩
  rcases hall _ hmem with ⟨hheld, -⟩ | ⟨-, hunique⟩
  · cases hheld
  · exact hunique

end Shift

end Backlog.Dispatch

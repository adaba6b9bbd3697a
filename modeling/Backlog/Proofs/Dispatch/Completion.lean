import Backlog.Proofs.Dispatch.Soundness

/-!
# A first tick comes to its end

A dispatcher in its first tick can always go on without a failing call: the store answers what it is asked, and where
the dispatcher waits in line for room in the channel, somebody can take a task.  Each such step brings the end of the
tick nearer.

Key facts: some move always leads nearer to the end (`Station.Sound.advance`), and so a tick can be brought to its end
from wherever it stands (`Station.Sound.ends`).
-/

namespace Backlog

namespace Channel

/-- The moves until the dispatcher has sent a task. -/
def wait (c : Channel) : Nat :=
  if 0 ∈ c.granted then 2 else if 0 ∈ c.senders then (if c.receivers = [] then 4 else 3) else 5

variable {c : Channel}

theorem wait_le (c : Channel) : c.wait ≤ 5 := by
  unfold wait
  split
  · decide
  · split
    · split <;> decide
    · decide

private theorem wait_of_granted (h : 0 ∈ c.granted) : c.wait = 2 := if_pos h

private theorem wait_of_senders (hgranted : c.granted = []) (hsenders : c.senders = [0]) :
    c.wait = if c.receivers = [] then 4 else 3 := by
  unfold wait
  rw [hgranted, hsenders, if_neg List.not_mem_nil, if_pos List.mem_cons_self]

theorem Lines.wait_join (h : c.Lines []) : (c.join 0).wait < c.wait := by
  obtain ⟨hgranted, hsenders⟩ := List.append_eq_nil_iff.1 h.senders
  have hwait : c.wait = 5 := by
    unfold wait
    rw [hgranted, hsenders, if_neg List.not_mem_nil, if_neg List.not_mem_nil]
  rw [hwait]
  rcases List.append_eq_singleton_iff.1 h.join.senders with ⟨hgranted', hsenders'⟩ | ⟨hgranted', -⟩
  · rw [wait_of_senders hgranted' hsenders']
    split <;> decide
  · rw [wait_of_granted (by rw [hgranted']; exact List.mem_cons_self)]
    decide

theorem wait_queueUp (hgranted : c.granted = []) (hsenders : c.senders = [0]) (hreceivers : c.receivers = [])
    (t : Ticket) : (c.queueUp t).wait < c.wait := by
  have hafter : (c.queueUp t).wait = if (c.queueUp t).receivers = [] then 4 else 3 :=
    wait_of_senders hgranted hsenders
  rw [hafter, wait_of_senders hgranted hsenders, if_pos hreceivers, if_neg]
  · decide
  · exact List.append_ne_nil_of_right_ne_nil _ (List.cons_ne_nil _ _)

/-- Where the dispatcher waits in line the channel is full, and the first receiver can take a task from it. -/
theorem Lines.exists_takeFor (h : c.Lines [0]) (hgranted : c.granted = []) (hsenders : c.senders = [0]) {r : Ticket}
    {receivers : List Ticket} (hreceivers : c.receivers = r :: receivers) :
    ∃ task c', c.takeFor r = some (task, c') ∧ c'.wait < c.wait := by
  have hfull := h.fits.full (by rw [hsenders]; exact List.cons_ne_nil _ _)
  have hpos := h.capacity_pos
  unfold buffered at hfull
  rw [hgranted] at hfull
  cases hitems : c.items with
  | nil =>
    rw [hitems] at hfull
    have hzero : 0 = c.capacity := hfull
    omega
  | cons task items =>
    refine ⟨task, ({ c with receivers := receivers, items := items } : Channel).passOn, ?_, ?_⟩
    · unfold Channel.takeFor take
      rw [hreceivers, if_pos (by rfl)]
      simp only [hitems, List.tail_cons]
    · -- the place of the task is passed on to the dispatcher
      rw [wait_of_senders hgranted hsenders, hreceivers, if_neg (List.cons_ne_nil _ _), wait_of_granted]
      · decide
      · unfold passOn
        simp only [hsenders]
        exact List.mem_append_right _ List.mem_cons_self

end Channel

namespace Dispatch

open Store

variable {s : Settings} {b : Backend} {q : Queue} {m : Memory} {deed : Deed} {task : Task} {rest : List Task}
  {line : List Ticket} {wakes : Nat}

/-! ### What is left to do -/

/-- The steps of a retirement that are left. -/
def Retirement.left : Retirement → Nat
  | updating => 5
  | counting => 4
  | dating => 3
  | announcing _ => 2
  | done _ => 1

namespace Reclaim

/-- Whether the tasks in processing are listed. -/
def isListed : Reclaim → Bool
  | listing => false
  | _ => true

/-- The steps of a pass that are left once the tasks are listed, at most. -/
def left : Reclaim → Nat
  | listing => 0
  | dating tasks => 8 * tasks.length + 1
  | guarding _ _ rest _ => 8 * rest.length + 7
  | checking _ _ rest _ => 8 * rest.length + 6
  | retiring _ _ rest _ stage => 8 * rest.length + stage.left
  | done _ => 0

private theorem listed_onward (now : Timestamp) (count : Nat) (rest : List Task) :
    (onward now count rest).isListed = true := by
  cases rest <;> rfl

private theorem left_onward (now : Timestamp) (count : Nat) (rest : List Task) {n : Nat} (h : 8 * rest.length < n) :
    (onward now count rest).left < n := by
  cases rest with
  | nil => exact h
  | cons task rest =>
    show 8 * rest.length + 7 < n
    rw [List.length_cons] at h
    omega

/-- Whether a pass is on its way through the listed tasks. -/
def isUnderway : Reclaim → Bool
  | listing => false
  | retiring _ _ _ _ (.done _) => false
  | done _ => false
  | _ => true

/-- A pass can go on if the update that it asks for is made. -/
theorem advance {pass : Reclaim} (underway : pass.isUnderway = true) (b : Backend) (q : Queue) (threshold : Duration)
    (answers : ∀ now task rest count, pass = retiring now task rest count .updating →
      (b.perform default (.updateStatus task.id (Retirement.update s task))).1 = .ok ()) :
    ∃ deed pass' b', (pass.next s threshold).Does pass deed pass' ∧ deed.Met b q b' q ∧ deed.isFailure = false ∧
      pass'.isListed = true ∧ pass'.left < pass.left := by
  cases pass with
  | listing => cases underway
  | dating tasks =>
    exact ⟨.readWallClock default, onward default 0 tasks, b, .readWallClock default, .acted rfl trivial, rfl,
      listed_onward _ _ _, left_onward _ _ _ (Nat.lt_succ_self _)⟩
  | guarding now task rest count =>
    exact ⟨.see false, checking now task rest count, b, .see false, .acted rfl rfl, rfl, rfl, Nat.lt_succ_self _⟩
  | checking now task rest count =>
    refine ⟨.look task.id (q.contains task.id), _, b, .look _, .acted rfl rfl, rfl, ?_⟩
    split
    · exact ⟨rfl, Nat.lt_succ_self _⟩
    · exact ⟨listed_onward _ _ _, left_onward _ _ _ (Nat.lt_add_of_pos_right (by decide))⟩
  | retiring now task rest count stage =>
    cases stage with
    | updating =>
      have hok := answers now task rest count rfl
      refine ⟨.ask (.updateStatus task.id (Retirement.update s task)) (.ok ()), _, _, .ask _, .answered default hok,
        rfl, rfl, ?_⟩
      exact Nat.lt_succ_self _
    | counting =>
      exact ⟨.record (Retirement.count s task), retiring now task rest count .dating, b, .record, .acted rfl trivial,
        rfl, rfl, Nat.lt_succ_self _⟩
    | dating =>
      exact ⟨.readWallClock default, retiring now task rest count (.announcing default), b, .readWallClock default,
        .acted rfl trivial, rfl, rfl, Nat.lt_succ_self _⟩
    | announcing read =>
      exact ⟨.notify task.userId (.ofTask task (Retirement.target s task) read), onward now (count + 1) rest, b,
        .notify, .acted rfl trivial, rfl, listed_onward _ _ _, left_onward _ _ _ (Nat.lt_add_of_pos_right Nat.two_pos)⟩
    | done moved => cases underway
  | done result => cases underway

theorem Sound.isUnderway {pass : Reclaim} (h : pass.Sound m) (listed : pass.isListed = true)
    (goesOn : ∀ result, pass ≠ done result) : pass.isUnderway = true := by
  cases pass with
  | listing => cases listed
  | retiring now task rest count stage =>
    cases stage with
    | done moved => exact h.elim
    | _ => rfl
  | done result => exact absurd rfl (goesOn result)
  | _ => rfl

/-- A pass that has listed its tasks can go on. -/
theorem Sound.advance {pass : Reclaim} (h : pass.Sound m) (sound : b.Sound s m) (q : Queue) (threshold : Duration)
    (listed : pass.isListed = true) (goesOn : ∀ result, pass ≠ done result) :
    ∃ deed pass' b', (pass.next s threshold).Does pass deed pass' ∧ deed.Met b q b' q ∧ deed.isFailure = false ∧
      pass'.isListed = true ∧ pass'.left < pass.left := by
  refine Reclaim.advance (h.isUnderway listed goesOn) b q threshold fun now task rest count stage => ?_
  subst stage
  exact (Fresh.retires h sound (.inl (h.2 task List.mem_cons_self).1) default).1

end Reclaim

namespace Poll

/-- Whether the waiting tasks are listed. -/
def isListed : Poll → Bool
  | starting => false
  | listing => false
  | _ => true

/-- The moves of a poll that are left, at most, in the part before the tasks are listed or in that after it. -/
def left (c : Channel) : Poll → Nat
  | starting => 2
  | listing => 1
  | failing _ => 0
  | checking _ rest _ => 8 * rest.length + 7
  | retiring _ rest _ stage => 8 * rest.length + stage.left
  | enqueueing _ rest _ .sending => 8 * rest.length + c.wait
  | enqueueing _ rest _ _ => 8 * rest.length + 6
  | counting rest _ => 8 * rest.length + 1
  | done _ => 0

theorem listed_onward (count : Nat) (rest : List Task) : (onward count rest).isListed = true := by
  cases rest <;> rfl

theorem left_onward (c : Channel) (count : Nat) (rest : List Task) {n : Nat} (h : 8 * rest.length < n) :
    (onward count rest).left c < n := by
  cases rest with
  | nil => exact h
  | cons task rest =>
    show 8 * rest.length + 7 < n
    rw [List.length_cons] at h
    omega

/-- Whether a poll is on its way through the listed tasks, and does not give up. -/
def isUnderway : Poll → Bool
  | checking _ _ _ => true
  | retiring _ _ _ (.done _) => false
  | retiring _ _ _ _ => true
  | enqueueing _ _ _ .tracking => true
  | enqueueing _ _ _ .sending => true
  | counting _ _ => true
  | _ => false

/-- A poll can go on if the update that it asks for is made, and if it does not wait for room in the channel. -/
theorem advance {poll : Poll} (underway : poll.isUnderway = true) (b : Backend) (q : Queue)
    (answers : ∀ task rest count, poll = retiring task rest count .updating →
      (b.perform default (.updateStatus task.id (Retirement.update s task))).1 = .ok ())
    (waits : ∀ task rest count, poll ≠ enqueueing task rest count .sending) :
    ∃ deed poll' b' q', (poll.next s).Does poll deed poll' ∧ deed.Met b q b' q' ∧ deed.isFailure = false ∧
      poll'.isListed = true ∧ poll'.left q'.channel < poll.left q.channel := by
  cases poll with
  | checking task rest count =>
    refine ⟨.look task.id (q.contains task.id), _, b, q, .look _, .acted rfl rfl, rfl, ?_⟩
    unfold afterCheck
    split
    · exact ⟨listed_onward _ _, left_onward _ _ _ (Nat.lt_add_of_pos_right (by decide))⟩
    · split
      · exact ⟨rfl, Nat.lt_succ_of_lt (Nat.lt_succ_self _)⟩
      · exact ⟨rfl, Nat.lt_succ_self _⟩
  | retiring task rest count stage =>
    cases stage with
    | updating =>
      have hok := answers task rest count rfl
      refine ⟨.ask (.updateStatus task.id (Retirement.update s task)) (.ok ()), _, _, q, .ask _, .answered default hok,
        rfl, rfl, ?_⟩
      exact Nat.lt_succ_self _
    | counting =>
      exact ⟨.record (Retirement.count s task), retiring task rest count .dating, b, q, .record, .acted rfl trivial,
        rfl, rfl, Nat.lt_succ_self _⟩
    | dating =>
      exact ⟨.readWallClock default, retiring task rest count (.announcing default), b, q, .readWallClock default,
        .acted rfl trivial, rfl, rfl, Nat.lt_succ_self _⟩
    | announcing read =>
      exact ⟨.notify task.userId (.ofTask task (Retirement.target s task) read), onward count rest, b, q, .notify,
        .acted rfl trivial, rfl, listed_onward _ _, left_onward _ _ _ (Nat.lt_add_of_pos_right Nat.two_pos)⟩
    | done moved => cases underway
  | enqueueing task rest count stage =>
    cases stage with
    | tracking =>
      exact ⟨.track default task, enqueueing task rest count .sending, b, q.track default task, .track default,
        .acted rfl trivial, rfl, rfl, Nat.add_lt_add_left (Nat.lt_succ_of_le q.channel.wait_le) _⟩
    | sending => exact absurd rfl (waits task rest count)
    | _ => cases underway
  | counting rest count =>
    exact ⟨.record .enqueued, onward count rest, b, q, .record, .acted rfl trivial, rfl, listed_onward _ _,
      left_onward _ _ _ (Nat.lt_succ_self _)⟩
  | _ => cases underway

theorem Sound.isUnderway {poll : Poll} (h : poll.Sound s m line) (listed : poll.isListed = true)
    (goesOn : ∀ result, poll ≠ done result) : poll.isUnderway = true := by
  cases poll with
  | starting => cases listed
  | listing => cases listed
  | failing e => exact h.elim
  | retiring task rest count stage =>
    cases stage with
    | done moved => exact h.elim
    | _ => rfl
  | enqueueing task rest count stage =>
    cases stage with
    | withdrawing => exact h.elim
    | done sent => exact h.elim
    | _ => rfl
  | done result => exact absurd rfl (goesOn result)
  | _ => rfl

theorem Sound.answers {poll : Poll} (h : poll.Sound s m line) (sound : b.Sound s m) {task : Task} {rest : List Task}
    {count : Nat} (stage : poll = retiring task rest count .updating) :
    (b.perform default (.updateStatus task.id (Retirement.update s task))).1 = .ok () := by
  subst stage
  obtain ⟨-, hmany, hfresh⟩ := h
  exact (hfresh.retires sound (.inr ⟨(hfresh.2 task List.mem_cons_self).1, hmany⟩) default).1

end Poll

/-! ### Room in the channel -/

/-- Where the dispatcher waits in line, somebody comes for a task or takes one. -/
private theorem exists_receipt (lines : q.channel.Lines [0]) (hgranted : q.channel.granted = [])
    (hsenders : q.channel.senders = [0]) :
    ∃ (deed : Deed) (t : Ticket) (c : Channel), t ≠ 0 ∧ deed.isReceipt = true ∧ deed.Fits t false q ∧
      deed.onQueue t q = { q with channel := c } ∧ c.wait < q.channel.wait := by
  cases hreceivers : q.channel.receivers with
  | nil =>
    have hfits : Deed.queueUp.Fits 1 false q := by
      show 1 ∉ q.channel.receivers
      rw [hreceivers]
      exact List.not_mem_nil
    exact ⟨.queueUp, 1, _, by decide, rfl, hfits, rfl, Channel.wait_queueUp hgranted hsenders hreceivers 1⟩
  | cons r receivers =>
    have hguest : r ≠ 0 := by
      rintro rfl
      refine lines.receivers ?_
      rw [hreceivers]
      exact List.mem_cons_self
    obtain ⟨task', c, htake, hless⟩ := lines.exists_takeFor hgranted hsenders hreceivers
    have hfits : (Deed.take task').Fits r false q := by
      show (q.channel.takeFor r).map Prod.fst = some task'
      rw [htake]
      rfl
    refine ⟨.take task', r, c, hguest, rfl, hfits, ?_, hless⟩
    obtain ⟨c', hc', hafter⟩ := hfits.exists_takeFor
    rw [htake] at hc'
    cases hc'
    exact hafter

/-- A sender that is not in line joins it, one for whom a place is reserved may send, and for one that waits somebody
comes for a task or takes one. -/
theorem exists_deed_of_sending (lines : q.channel.Lines line) (hline : line = [] ∨ line = [0]) :
    (Deed.join.Fits 0 false q ∧ (q.channel.join 0).wait < q.channel.wait) ∨
      ((∀ task, (Deed.send task).Fits 0 false q) ∧ 1 < q.channel.wait) ∨
      ∃ (deed : Deed) (t : Ticket) (c : Channel), t ≠ 0 ∧ deed.isReceipt = true ∧ deed.Fits t false q ∧
        deed.onQueue t q = { q with channel := c } ∧ c.wait < q.channel.wait := by
  rcases hline with rfl | rfl
  · obtain ⟨hgranted, hsenders⟩ := List.append_eq_nil_iff.1 lines.senders
    refine .inl ⟨⟨?_, ?_⟩, lines.wait_join⟩
    · unfold Channel.maySend
      rw [hgranted]
      rfl
    · rw [hsenders]
      exact List.not_mem_nil
  · by_cases hmem : 0 ∈ q.channel.granted
    · refine .inr (.inl ⟨fun task => List.contains_iff_mem.2 hmem, ?_⟩)
      unfold Channel.wait
      rw [if_pos hmem]
      exact Nat.lt_succ_self _
    · rcases List.append_eq_singleton_iff.1 lines.senders with ⟨hgranted, hsenders⟩ | ⟨hgranted, -⟩
      · exact .inr (.inr (exists_receipt lines hgranted hsenders))
      · rw [hgranted] at hmem
        exact absurd List.mem_cons_self hmem

namespace Station

/-- The parts of a tick that are left; nothing is known of the length of a part before its tasks are listed. -/
def phase (x : Station) : Nat :=
  match x.dispatcher with
  | .starting => 6
  | .timing => 5
  | .waiting true _ => 4
  | .reclaiming _ _ pass => if pass.isListed then 2 else 3
  | .polling _ poll => if poll.isListed then 0 else 1
  | _ => 0

/-- The moves that are left, at most, in this part of the tick. -/
def left (x : Station) : Nat :=
  match x.dispatcher with
  | .reclaiming _ _ pass => pass.left
  | .polling _ poll => poll.left x.queue.channel
  | _ => 0

/-- A station is nearer than another to the end of the tick. -/
def Nearer (y x : Station) : Prop := y.phase < x.phase ∨ y.phase = x.phase ∧ y.left < x.left

variable {others : Request → Prop} {x y : Station} {deeds : List Deed} {o : Option Deed}

private theorem nearer_of_wait {c : Channel} {count : Nat} {due : Instant} (h : c.wait < q.channel.wait) :
    Nearer ⟨b, { q with channel := c }, .polling due (.enqueueing task rest count .sending)⟩
      ⟨b, q, .polling due (.enqueueing task rest count .sending)⟩ :=
  .inr ⟨rfl, Nat.add_lt_add_left h _⟩

/-- A sender that is not in line joins it, and one for whom a place is reserved sends. -/
private theorem exists_move_of_sending {due : Instant} {count : Nat} (lines : q.channel.Lines line)
    (hline : line = [] ∨ line = [0]) :
    ∃ o y, Moves s others ⟨b, q, .polling due (.enqueueing task rest count .sending)⟩ o y ∧
      (∀ deed ∈ o.toList, deed.isFailure = false) ∧ o.toList.countP Deed.isWake = 0 ∧
      y.Nearer ⟨b, q, .polling due (.enqueueing task rest count .sending)⟩ := by
  rcases exists_deed_of_sending lines hline with
    ⟨hfits, hless⟩ | ⟨hfits, hless⟩ | ⟨deed, t, c, guest, receipt, hfits, hafter, hless⟩
  · refine ⟨some .join, _, .own .join (.acted rfl hfits), fun deed h => ?_, rfl, nearer_of_wait hless⟩
    obtain rfl := List.mem_singleton.1 h
    rfl
  · refine ⟨some (.send task), _, .own .send (.acted rfl (hfits task)), fun deed h => ?_, rfl,
      .inr ⟨rfl, Nat.add_lt_add_left hless _⟩⟩
    obtain rfl := List.mem_singleton.1 h
    rfl
  · refine ⟨none, _, .visited guest (Deed.isTaking_of_isReceipt receipt) hfits, fun deed h => (by cases h), rfl, ?_⟩
    rw [hafter]
    exact nearer_of_wait hless

/-! ### The end of the tick -/

private theorem nearer_afterReclaim {b' : Backend} {q' : Queue} {due : Instant} {threshold : Duration}
    {pass pass' : Reclaim} (listed : pass.isListed = true) (listed' : pass'.isListed = true)
    (h : pass'.left < pass.left) :
    Nearer ⟨b', q', Dispatcher.afterReclaim due threshold pass'⟩ ⟨b, q, .reclaiming due threshold pass⟩ := by
  have hphase : phase ⟨b, q, .reclaiming due threshold pass⟩ = 2 := if_pos listed
  unfold Nearer
  rw [hphase]
  cases pass' with
  | listing => cases listed'
  | done result => exact .inl Nat.one_lt_two
  | _ => exact .inr ⟨rfl, h⟩

private theorem phase_afterPoll {due : Instant} {poll : Poll} (listed : poll.isListed = true) :
    phase ⟨b, q, Dispatcher.afterPoll due poll⟩ = 0 := by
  cases poll with
  | starting => cases listed
  | listing => cases listed
  | _ => rfl

private theorem nearer_afterPoll {b' : Backend} {q' : Queue} {due : Instant} {poll poll' : Poll}
    (listed : poll.isListed = true) (listed' : poll'.isListed = true)
    (h : poll'.left q'.channel < poll.left q.channel) :
    Nearer ⟨b', q', Dispatcher.afterPoll due poll'⟩ ⟨b, q, .polling due poll⟩ := by
  have hphase : phase ⟨b, q, .polling due poll⟩ = 0 := if_pos listed
  refine .inr ⟨(phase_afterPoll listed').trans hphase.symm, ?_⟩
  cases poll' <;> exact h

/-- Some move leads nearer to the end of the tick. -/
theorem Sound.advance (h : x.Sound s deeds) (goesOn : ∀ due, x.dispatcher ≠ .waiting false due) :
    ∃ o y, x.Moves s others o y ∧ (∀ deed ∈ o.toList, deed.isFailure = false) ∧
      (deeds ++ o.toList).countP Deed.isWake ≤ 1 ∧ y.Nearer x := by
  obtain ⟨m, line, hstore, hlines, hstage⟩ := h
  simp only [List.countP_append]
  generalize deeds.countP Deed.isWake = wakes at hstage ⊢
  generalize deeds.filterMap Deed.sent? = handed at hstage
  obtain ⟨b, q, d⟩ := x
  have hcalm {deed : Deed} (h : deed.isFailure = false) : ∀ deed' ∈ (some deed).toList, deed'.isFailure = false := by
    intro deed' hdeed
    obtain rfl := List.mem_singleton.1 hdeed
    exact h
  cases d with
  | starting =>
    obtain ⟨rfl, -⟩ := hstage
    exact ⟨some (.showRunning true), ⟨b, q, .timing⟩, .own .showRunning (.acted rfl trivial), hcalm rfl, by decide,
      .inl (Nat.lt_succ_self _)⟩
  | timing =>
    obtain ⟨rfl, -⟩ := hstage
    exact ⟨some (.readClock ⟨0⟩), ⟨b, q, .waiting true ⟨0⟩⟩, .own (.readClock _) (.acted rfl trivial), hcalm rfl,
      by decide, .inl (Nat.lt_succ_self _)⟩
  | waiting first due =>
    cases first with
    | true =>
      obtain ⟨rfl, -⟩ := hstage
      exact ⟨some (.wake due), _, .own (.wake due) (.acted rfl trivial), hcalm rfl, Nat.le_refl 1,
        .inl (Nat.lt_succ_self _)⟩
    | false => exact absurd rfl (goesOn due)
  | reclaiming due threshold pass =>
    obtain ⟨rfl, -, -, hpass, hopen⟩ := hstage
    cases hlisted : pass.isListed with
    | false =>
      obtain rfl : pass = .listing := by
        cases pass with
        | listing => rfl
        | _ => cases hlisted
      have hmet : (Deed.ask (.listByStatus .processing) (.ok (m.withStatus .processing))).Met b q
          (b.perform default (.listByStatus .processing)).2 q := .answered default (by rw [hstore.listed]; rfl)
      exact ⟨some (.ask (.listByStatus .processing) (.ok _)), _, .own (.ask _) hmet, hcalm rfl, Nat.le_refl 1,
        .inl (Nat.lt_succ_self _)⟩
    | true =>
      obtain ⟨deed, pass', b', hdoes, hmet, hquiet, hlisted', hless⟩ := hpass.advance hstore q threshold hlisted hopen
      refine ⟨some deed, _, .own (Dispatcher.Does.of_reclaiming due hdoes hopen) hmet, hcalm hquiet, ?_,
        nearer_afterReclaim hlisted hlisted' hless⟩
      show 1 + [deed].countP Deed.isWake ≤ 1
      rw [List.countP_singleton, Reclaim.isWake_of_does hdoes]
      exact Nat.le_refl 1
  | polling due poll =>
    obtain ⟨rfl, -, hpoll, hopen⟩ := hstage
    cases hlisted : poll.isListed with
    | false =>
      cases poll with
      | starting =>
        exact ⟨some (.record .poll), ⟨b, q, .polling due .listing⟩, .own .record (.acted rfl trivial), hcalm rfl,
          Nat.le_refl 1, .inr ⟨rfl, Nat.lt_succ_self _⟩⟩
      | listing =>
        have hmet : (Deed.ask (.listByStatus .pending) (.ok (m.withStatus .pending))).Met b q
            (b.perform default (.listByStatus .pending)).2 q := .answered default (by rw [hstore.listed]; rfl)
        refine ⟨some (.ask (.listByStatus .pending) (.ok _)), _, .own (.ask _) hmet, hcalm rfl, Nat.le_refl 1, .inl ?_⟩
        refine Nat.lt_of_le_of_lt (Nat.le_of_eq (phase_afterPoll ?_)) Nat.one_pos
        exact Poll.listed_onward 0 _
      | _ => cases hlisted
    | true =>
      by_cases hsends : ∃ task rest count, poll = .enqueueing task rest count .sending
      · obtain ⟨task, rest, count, rfl⟩ := hsends
        obtain ⟨o, y, move, hquiet, hwake, hnearer⟩ := exists_move_of_sending hlines hpoll.1
        exact ⟨o, y, move, hquiet, Nat.le_of_eq (congrArg (1 + ·) hwake), hnearer⟩
      · obtain ⟨deed, poll', b', q', hdoes, hmet, hquiet, hlisted', hless⟩ :=
          Poll.advance (hpoll.isUnderway hlisted hopen) b q (fun _ _ _ stage => hpoll.answers hstore stage)
            fun task rest count h => hsends ⟨task, rest, count, h⟩
        refine ⟨some deed, _, .own (Dispatcher.Does.of_polling due hdoes hopen) hmet, hcalm hquiet, ?_,
          nearer_afterPoll hlisted hlisted' hless⟩
        show 1 + [deed].countP Deed.isWake ≤ 1
        rw [List.countP_singleton, Poll.isWake_of_does hdoes]
        exact Nat.le_refl 1
  | stopping => exact hstage.elim
  | stopped => exact hstage.elim

/-- A tick can be brought to its end from wherever it stands. -/
theorem Sound.ends (h : x.Sound s deeds) (peaceful : ∀ r, others r → r.isPeaceful = true) :
    ∃ z more due, x.Reaches s others z more ∧ (∀ deed ∈ more, deed.isFailure = false) ∧
      (deeds ++ more).countP Deed.isWake ≤ 1 ∧ z.dispatcher = .waiting false due := by
  generalize hphase : x.phase = n
  induction n using Nat.strongRecOn generalizing x deeds with
  | ind n ihphase =>
    generalize hleft : x.left = k
    induction k using Nat.strongRecOn generalizing x deeds with
    | ind k ihleft =>
      by_cases hover : ∃ due, x.dispatcher = .waiting false due
      · obtain ⟨due, hdue⟩ := hover
        obtain ⟨m, line, -, -, hstage⟩ := h
        rw [hdue] at hstage
        refine ⟨x, [], due, .start, fun deed h => (by cases h), ?_, hdue⟩
        rw [List.append_nil]
        exact Nat.le_of_eq hstage.1
      · obtain ⟨o, y, move, hcalm, honce, hnearer⟩ := h.advance fun due hdue => hover ⟨due, hdue⟩
        have hy := h.step peaceful move hcalm honce
        have hrest : ∃ z more due, y.Reaches s others z more ∧ (∀ deed ∈ more, deed.isFailure = false) ∧
            (deeds ++ o.toList ++ more).countP Deed.isWake ≤ 1 ∧ z.dispatcher = .waiting false due := by
          rcases hnearer with hless | ⟨hsame, hless⟩
          · exact ihphase y.phase (hphase ▸ hless) hy rfl
          · exact ihleft y.left (hleft ▸ hless) hy (hsame.trans hphase) rfl
        obtain ⟨z, more, due, hreach, hquiet, hwakes, hdue⟩ := hrest
        rw [List.append_assoc] at hwakes
        refine ⟨z, o.toList ++ more, due, (Reaches.start.step move).trans hreach, fun deed h => ?_, hwakes, hdue⟩
        rcases List.mem_append.1 h with h | h
        · exact hcalm deed h
        · exact hquiet deed h

end Station

end Dispatch

end Backlog

import Backlog.Proofs.Dispatch.Completion
import Backlog.Proofs.Dispatch.Progress

/-!
# One poll

A poll works on its store and its queue while its token does not fire.  Nobody else changes the store, and others have
to do with the queue only as receivers: they may take tasks out of the channel, and so make room in it.

Key facts: a poll that meets no failure does to each waiting task what its attempts and the queue say, and to nothing
else anything (`Polling.Polled`).  A poll that follows it at once finds nothing to do, one that cannot list the tasks
changes nothing but the counters (`Polling.LeftAlone`), and every other one can be brought to its end, also where it has
to wait for room (`Polling.Reaches.polls_once`).
-/

namespace Backlog.Dispatch

open Store

/-- A poll, and the store, the queue and the counters on which it works. -/
structure Polling where
  store : Backend
  queue : Queue
  tally : Tally
  poll : Poll

variable {s : Settings} {b b' : Backend} {q q' : Queue} {t : Ticket} {cancelled : Bool} {deed : Deed} {task : Task}
  {past rest ts : List Task} {poll poll' : Poll}

/-! ### Others -/

namespace Deed

/-- Receivers have nothing to do with the register. -/
theorem register_onQueue (receipt : deed.isReceipt = true) (t : Ticket) (q : Queue) :
    (deed.onQueue t q).entries = q.entries ∧ (deed.onQueue t q).nextSequence = q.nextSequence := by
  cases deed with
  | queueUp => exact ⟨rfl, rfl⟩
  | take task => exact ⟨rfl, rfl⟩
  | turnAway => exact ⟨rfl, rfl⟩
  | _ => cases receipt

theorem items_onQueue (receipt : deed.isReceipt = true) (fits : deed.Fits t cancelled q) :
    deed.taken?.toList ++ (deed.onQueue t q).channel.items = q.channel.items := by
  cases deed with
  | take task =>
    obtain ⟨c, hc, hafter⟩ := fits.exists_takeFor
    rw [hafter]
    exact (Channel.takeFor_spec hc).1.symm
  | queueUp => rfl
  | turnAway => rfl
  | _ => cases receipt

end Deed

namespace Polling

/-! ### What has come of a poll -/

/-- Since the poll was in its first state, this has come of it; others have taken some tasks out of the channel. -/
structure Books (x₀ x : Polling) (deeds : List Deed) (taken : List Task) (p : Poll.Progress) : Prop where
  store : x₀.store.Fails p.retired x.store
  entries : ∃ added, x.queue.entries = x₀.queue.entries ++ added ∧ (added.map fun e => e.task) = p.tracked
  sequence : x.queue.nextSequence = x₀.queue.nextSequence + p.tracked.length
  items : taken ++ x.queue.channel.items = x₀.queue.channel.items ++ p.sent
  sent : deeds.filterMap Deed.sent? = p.sent
  tally : x.tally = p.tally

variable {x₀ x : Polling} {deeds : List Deed} {taken : List Task} {p : Poll.Progress}

theorem books_start (x₀ : Polling) : x₀.Books x₀ [] [] (.counted x₀.tally) :=
  ⟨.none, ⟨[], (List.append_nil _).symm, rfl⟩, rfl, (List.append_nil _).symm, rfl, rfl⟩

namespace Books

theorem visit (h : Books x₀ x deeds taken p) (receipt : deed.isReceipt = true)
    (fits : deed.Fits t cancelled x.queue) :
    Books x₀ { x with queue := deed.onQueue t x.queue } deeds (taken ++ deed.taken?.toList) p := by
  obtain ⟨hentries, hsequence⟩ := Deed.register_onQueue receipt t x.queue
  refine { h with entries := ?_, sequence := ?_, items := ?_ }
  · rw [hentries]
    exact h.entries
  · rw [hsequence]
    exact h.sequence
  · rw [List.append_assoc, Deed.items_onQueue receipt fits]
    exact h.items

private theorem sent_concat (h : Books x₀ x deeds taken p) (deed : Deed) :
    (deeds ++ [deed]).filterMap Deed.sent? = p.sent ++ deed.sent?.toList := by
  rw [List.filterMap_append, h.sent, Deed.filterMap_sent?]

/-- A deed that leaves the store and the queue as they are may count something. -/
theorem aside (h : Books x₀ x deeds taken p) (deed : Deed) (poll : Poll) (unsent : deed.sent? = none) :
    Books x₀ ⟨x.store, x.queue, deed.onTally x.tally, poll⟩ (deeds ++ [deed]) taken
      { p with tally := deed.onTally p.tally } := by
  refine ⟨h.store, h.entries, h.sequence, h.items, ?_, congrArg deed.onTally h.tally⟩
  rw [h.sent_concat, unsent]
  exact List.append_nil _

theorem failed (h : Books x₀ x deeds taken p) (poll : Poll) (wall : Timestamp)
    (admits : x.store.Admits task.id task.failure) :
    Books x₀ ⟨(x.store.perform wall (.updateStatus task.id task.failure)).2, x.queue, x.tally, poll⟩
      (deeds ++ [.ask (.updateStatus task.id task.failure) (.ok ())]) taken
      { p with retired := p.retired ++ [task] } := by
  refine ⟨.next wall h.store admits, h.entries, h.sequence, h.items, ?_, h.tally⟩
  rw [h.sent_concat]
  exact List.append_nil _

theorem tracked (h : Books x₀ x deeds taken p) (poll : Poll) (now : Timestamp)
    (untracked : x.queue.contains task.id = false) :
    Books x₀ ⟨x.store, x.queue.track now task, x.tally, poll⟩ (deeds ++ [.track now task]) taken
      { p with tracked := p.tracked ++ [task] } := by
  obtain ⟨added, hentries, hadded⟩ := h.entries
  refine ⟨h.store, ⟨added ++ [⟨task, x.queue.nextSequence, now⟩], ?_, ?_⟩, ?_, h.items, ?_, h.tally⟩
  · -- no entry is replaced
    have hkept : (x.queue.entries.filter fun e => e.task.id ≠ task.id) = x.queue.entries := by
      rw [List.filter_eq_self]
      intro e he
      have hother : e.task.id ≠ task.id := by
        intro hid
        have hcontains := (x.queue.contains_iff_mem_ids task.id).2 (List.mem_map.2 ⟨e, he, hid⟩)
        rw [untracked] at hcontains
        cases hcontains
      simpa using hother
    show (x.queue.entries.filter fun e => e.task.id ≠ task.id) ++ _ = _
    rw [hkept, hentries, List.append_assoc]
  · rw [List.map_append, hadded]
    rfl
  · rw [List.length_append, ← Nat.add_assoc, ← h.sequence]
    rfl
  · rw [h.sent_concat]
    exact List.append_nil _

theorem joined (h : Books x₀ x deeds taken p) (poll : Poll) :
    Books x₀ ⟨x.store, { x.queue with channel := x.queue.channel.join 0 }, x.tally, poll⟩ (deeds ++ [.join]) taken
      p := by
  refine ⟨h.store, h.entries, h.sequence, ?_, ?_, h.tally⟩
  · rw [Channel.items_join]
    exact h.items
  · rw [h.sent_concat]
    exact List.append_nil _

theorem handed (h : Books x₀ x deeds taken p) (poll : Poll) (task : Task) :
    Books x₀ ⟨x.store, { x.queue with channel := x.queue.channel.send 0 task }, x.tally, poll⟩ (deeds ++ [.send task])
      taken { p with sent := p.sent ++ [task] } := by
  refine ⟨h.store, h.entries, h.sequence, ?_, ?_, h.tally⟩
  · show taken ++ (x.queue.channel.items ++ [task]) = _
    rw [← List.append_assoc, h.items, List.append_assoc]
  · rw [h.sent_concat]
    rfl

/-- The queue tracks what it tracked before and what the poll has made it track. -/
theorem contains_iff (h : Books x₀ x deeds taken p) (id : Int) :
    x.queue.contains id = true ↔ x₀.queue.contains id = true ∨ ∃ c ∈ p.tracked, c.id = id := by
  obtain ⟨added, hentries, hadded⟩ := h.entries
  rw [Queue.contains_iff_mem_ids, Queue.contains_iff_mem_ids, ← hadded]
  unfold Queue.ids
  rw [hentries, List.map_append, List.mem_append]
  simp only [List.mem_map, exists_exists_and_eq_and]

/-- The poll has changed nothing about the tracking of a task that is still ahead. -/
theorem contains_ahead (h : Books x₀ x deeds taken p) (tracked : p.tracked = Poll.handed s x₀.queue past)
    (order : Ascending (past ++ task :: rest)) : x.queue.contains task.id = x₀.queue.contains task.id := by
  rw [Bool.eq_iff_iff, h.contains_iff, or_iff_left]
  rintro ⟨c, hc, hid⟩
  rw [tracked] at hc
  have hlt := (List.pairwise_append.1 order).2.2 c (List.mem_of_mem_filter hc) task List.mem_cons_self
  omega

end Books

/-- Where a poll stands and what has come of it go on together as long as nothing fails. -/
theorem Books.step (h : Books x₀ x deeds taken p) (stands : x.poll.Stands s x₀.queue x₀.tally ts p)
    (order : Ascending ts) (hb : x.store.Ordered) (calm : x.poll.Calm s x.store x.queue deed b q poll') :
    ∃ p', poll'.Stands s x₀.queue x₀.tally ts p' ∧
      Books x₀ ⟨b, q, deed.onTally x.tally, poll'⟩ (deeds ++ [deed]) taken p' := by
  obtain ⟨store, queue, tally, poll⟩ := x
  dsimp only at stands calm hb ⊢
  have before {past : List Task} {task : Task} {rest : List Task} (cut : ts = past ++ task :: rest)
      (tracked : p.tracked = Poll.handed s x₀.queue past) : queue.contains task.id = x₀.queue.contains task.id := by
    have horder : Ascending (past ++ task :: rest) := cut ▸ order
    exact h.contains_ahead tracked horder
  have next {past : List Task} {task : Task} {rest : List Task} (cut : ts = past ++ task :: rest) :
      ts = past ++ [task] ++ rest := by rw [cut, List.append_assoc, List.singleton_append]
  cases calm with
  | started => cases stands
  | listed wall answer => cases stands
  | failed => cases stands
  | skipped tracked =>
    cases stands with
    | checking cut =>
      rw [before cut rfl] at tracked
      exact ⟨_, Poll.stands_onward (next cut) (Poll.Progress.upTo_of_tracked tracked).symm rfl, h.aside _ _ rfl⟩
  | spent untracked many =>
    cases stands with
    | checking cut =>
      rw [before cut rfl] at untracked
      exact ⟨_, .updating cut untracked many, h.aside _ _ rfl⟩
  | chosen untracked few =>
    cases stands with
    | checking cut =>
      rw [before cut rfl] at untracked
      exact ⟨_, .tracking cut untracked few, h.aside _ _ rfl⟩
  | retired does =>
    cases stands with
    | updating cut untracked many =>
      cases does with
      | updated wall answer =>
        rw [Retirement.update_of_many many] at answer ⊢
        exact ⟨_, .burying cut untracked many, h.failed _ wall ((hb.updateStatus_ok_iff wall).1 answer)⟩
    | burying cut untracked many =>
      cases does with
      | counted =>
        refine ⟨_, .telling cut untracked many (.inl rfl), ?_⟩
        rw [Retirement.count_of_many many, Poll.Progress.upTo_of_many untracked many]
        exact h.aside _ _ rfl
    | telling cut untracked many counted =>
      cases does with
      | updated wall answer => rcases counted with hstage | ⟨now, hstage⟩ <;> cases hstage
      | counted => rcases counted with hstage | ⟨now, hstage⟩ <;> cases hstage
      | dated now => exact ⟨_, .telling cut untracked many (.inr ⟨now, rfl⟩), h.aside _ _ rfl⟩
      | told now =>
        refine ⟨_, Poll.stands_onward (next cut) rfl ?_, h.aside _ _ rfl⟩
        rw [Poll.Progress.upTo_of_many untracked many]
        rfl
  | tracked now =>
    cases stands with
    | tracking cut untracked few =>
      exact ⟨_, .sending cut untracked few, h.tracked _ now ((before cut rfl).trans untracked)⟩
  | joined waits new =>
    cases stands with
    | sending cut untracked few => exact ⟨_, .sending cut untracked few, h.joined _⟩
  | sent may =>
    cases stands with
    | sending cut untracked few => exact ⟨_, .counting cut untracked few, h.handed _ _⟩
  | withdrawn => cases stands
  | counted =>
    cases stands with
    | counting cut untracked few =>
      refine ⟨_, Poll.stands_onward (next cut) (Poll.Progress.upTo_of_few untracked few).symm ?_, h.aside _ _ rfl⟩
      show _ = (Poll.handed s x₀.queue _ ++ [_]).length
      rw [List.length_append]
      rfl

/-! ### Runs -/

/-- What may happen next, with the deed by which the poll has done it or the task that somebody else has taken: the poll
does something, and its token does not fire; or somebody has to do with the line of receivers. -/
inductive Moves (s : Settings) (x : Polling) : Option Deed → Option Task → Polling → Prop where
  | own {deed : Deed} {poll : Poll} {b : Backend} {q : Queue} (does : (x.poll.next s).Does x.poll deed poll)
      (met : deed.Met x.store x.queue b q) : Moves s x (some deed) none ⟨b, q, deed.onTally x.tally, poll⟩
  | visited {deed : Deed} {t : Ticket} {cancelled : Bool} (guest : t ≠ 0) (receipt : deed.isReceipt = true)
      (fits : deed.Fits t cancelled x.queue) :
    Moves s x none deed.taken? { x with queue := deed.onQueue t x.queue }

/-- What can come of a poll, with its deeds and the tasks that others have taken on the way there. -/
inductive Reaches (s : Settings) (x₀ : Polling) : Polling → List Deed → List Task → Prop where
  | start : Reaches s x₀ x₀ [] []
  | step {x y : Polling} {deeds : List Deed} {taken : List Task} {o : Option Deed} {r : Option Task}
      (h : Reaches s x₀ x deeds taken) (m : x.Moves s o r y) : Reaches s x₀ y (deeds ++ o.toList) (taken ++ r.toList)

/-- Nothing that the poll has asked of the store has failed. -/
def Calm (deeds : List Deed) : Prop := ∀ deed ∈ deeds, deed.isFailure = false

theorem calm_append {deeds more : List Deed} : Calm (deeds ++ more) ↔ Calm deeds ∧ Calm more := List.forall_mem_append

theorem not_calm_of_failed {deeds more : List Deed} {first : Deed} {r : Request} {e : StoreError}
    (h : deeds = first :: .ask r (.error e) :: more) : ¬ Calm deeds := by
  intro calm
  rw [h] at calm
  have hquiet := calm _ (List.mem_cons_of_mem _ List.mem_cons_self)
  cases hquiet

/-- What is known of a poll that has begun in the first of two states. -/
inductive Sound (s : Settings) (x₀ x : Polling) (deeds : List Deed) (taken : List Task) : Prop where
  | starting (stage : x.poll = .starting) (done : deeds = []) (books : x₀.Books x deeds taken (.counted x₀.tally))
  | listing (stage : x.poll = .listing) (done : deeds = [.record .poll])
      (books : x₀.Books x deeds taken (.counted (x₀.tally.record .poll)))
  | failing {e : StoreError} (stage : x.poll = .failing e)
      (done : deeds = [.record .poll, .ask (.listByStatus .pending) (.error e)])
      (books : x₀.Books x deeds taken (.counted (x₀.tally.record .poll)))
  | failed {e : StoreError} (stage : x.poll = .done (.error e))
      (done : deeds = [.record .poll, .ask (.listByStatus .pending) (.error e), .record .pollError])
      (books : x₀.Books x deeds taken (.counted ((x₀.tally.record .poll).record .pollError)))
  | listed {wall : Timestamp} {ts : List Task} (answer : (x₀.store.perform wall (.listByStatus .pending)).1 = .ok ts)
      (later : x.poll.isListed = true) (unfailed : ∀ e, .ask (.listByStatus .pending) (.error e) ∉ deeds)
      (goes : Calm deeds → ∃ p, x.poll.Stands s x₀.queue x₀.tally ts p ∧ x₀.Books x deeds taken p)

variable {y : Polling} {o : Option Deed} {r : Option Task}

theorem Sound.visit (h : x₀.Sound s x deeds taken) (receipt : deed.isReceipt = true)
    (fits : deed.Fits t cancelled x.queue) :
    x₀.Sound s { x with queue := deed.onQueue t x.queue } deeds (taken ++ deed.taken?.toList) := by
  cases h with
  | starting stage done books => exact .starting stage done (books.visit receipt fits)
  | listing stage done books => exact .listing stage done (books.visit receipt fits)
  | failing stage done books => exact .failing stage done (books.visit receipt fits)
  | failed stage done books => exact .failed stage done (books.visit receipt fits)
  | listed answer later unfailed goes =>
    refine .listed answer later unfailed fun calm => ?_
    obtain ⟨p, hstands, hbooks⟩ := goes calm
    exact ⟨p, hstands, hbooks.visit receipt fits⟩

/-- Once a poll has listed the tasks it does not list them again. -/
private theorem listed_of_does (h : (poll.next s).Does poll deed poll') (listed : poll.isListed = true) :
    poll'.isListed = true ∧ ∀ result, deed ≠ .ask (.listByStatus .pending) result := by
  cases poll with
  | starting => cases listed
  | listing => cases listed
  | failing e =>
    cases h
    exact ⟨rfl, nofun⟩
  | checking task rest count =>
    cases h with
    | look tracked =>
      refine ⟨?_, nofun⟩
      unfold Poll.afterCheck
      split
      · exact Poll.listed_onward _ _
      · split <;> rfl
  | retiring task rest count stage =>
    obtain ⟨stage', hdoes, rfl⟩ := Poll.does_retiring h
    have hdeed : ∀ result, deed ≠ .ask (.listByStatus .pending) result := by
      cases stage <;> cases hdoes <;> exact nofun
    refine ⟨?_, hdeed⟩
    cases stage' with
    | done moved => exact Poll.listed_onward _ _
    | _ => rfl
  | enqueueing task rest count stage =>
    obtain ⟨stage', hdoes, rfl⟩ := Poll.does_enqueueing h
    have hdeed : ∀ result, deed ≠ .ask (.listByStatus .pending) result := by
      cases stage <;> cases hdoes <;> exact nofun
    refine ⟨?_, hdeed⟩
    cases stage' with
    | done sent => cases sent <;> rfl
    | _ => rfl
  | counting rest count =>
    cases h
    exact ⟨Poll.listed_onward _ _, nofun⟩
  | done result => cases h

theorem Sound.own (h : x₀.Sound s x deeds taken) (hb : x₀.store.Ordered) (does : (x.poll.next s).Does x.poll deed poll')
    (met : deed.Met x.store x.queue b q) :
    x₀.Sound s ⟨b, q, deed.onTally x.tally, poll'⟩ (deeds ++ [deed]) taken := by
  cases h with
  | starting stage done books =>
    rw [stage] at does
    cases does with
    | record =>
      obtain ⟨-, rfl, rfl⟩ := met.deeds rfl
      exact .listing rfl (by rw [done]; rfl) (books.aside _ _ rfl)
  | listing stage done books =>
    rw [stage] at does
    cases does with
    | ask result =>
      obtain ⟨rfl, rfl⟩ := met.of_listing
      have hbooks := books.aside (.ask (.listByStatus .pending) result) (Poll.afterListing result) rfl
      cases result with
      | error e => exact .failing rfl (by rw [done]; rfl) hbooks
      | ok ts =>
        obtain ⟨-, -, wall, ts', hts, answer⟩ := met.listed rfl
        cases hts
        refine .listed (books.store.eq_of_nil ▸ answer) (Poll.listed_onward 0 ts) ?_ fun _ => ⟨_, ?_, hbooks⟩
        · intro e he
          rw [done] at he
          simp at he
        · exact Poll.stands_onward (List.nil_append ts).symm rfl rfl
    | drop hy =>
      obtain ⟨fits, -⟩ := met.deeds rfl
      cases fits
  | failing stage done books =>
    rw [stage] at does
    cases does with
    | record =>
      obtain ⟨-, rfl, rfl⟩ := met.deeds rfl
      exact .failed rfl (by rw [done]; rfl) (books.aside _ _ rfl)
  | failed stage done books =>
    rw [stage] at does
    cases does
  | listed answer later unfailed goes =>
    obtain ⟨later', hdeed⟩ := listed_of_does does later
    refine .listed answer later' ?_ fun calm => ?_
    · intro e he
      rcases List.mem_append.1 he with he | he
      · exact unfailed e he
      · exact hdeed _ (List.mem_singleton.1 he).symm
    · obtain ⟨hbefore, hlast⟩ := calm_append.1 calm
      obtain ⟨p, hstands, hbooks⟩ := goes hbefore
      have hcalm := Poll.Calm.of_does does met (hlast deed List.mem_cons_self)
      exact hbooks.step hstands (hb.listed answer).1 (hbooks.store.ordered hb) hcalm

theorem Reaches.sound (h : x₀.Reaches s x deeds taken) (hb : x₀.store.Ordered) (starts : x₀.poll = .starting) :
    x₀.Sound s x deeds taken := by
  induction h with
  | start => exact .starting starts rfl (books_start x₀)
  | step _ m ih =>
    cases m with
    | own does met =>
      rw [Option.toList_none, List.append_nil]
      exact ih.own hb does met
    | visited guest receipt fits =>
      rw [Option.toList_none, List.append_nil]
      exact ih.visit receipt fits

theorem Reaches.trans {z : Polling} {more : List Deed} {received : List Task} (h : x.Reaches s y deeds taken)
    (h' : y.Reaches s z more received) : x.Reaches s z (deeds ++ more) (taken ++ received) := by
  induction h' with
  | start => rwa [List.append_nil, List.append_nil]
  | step _ m ih =>
    rw [← List.append_assoc, ← List.append_assoc]
    exact ih.step m

/-! ### A poll comes to its end -/

/-- Nobody is in the line of senders but the poll, and the poll only while it sends. -/
def InLine (x : Polling) : Prop :=
  ∃ line, x.queue.channel.Lines line ∧
    (line = [] ∨ line = [0] ∧ ∃ task rest count, x.poll = .enqueueing task rest count .sending)

theorem InLine.visit (h : x.InLine) (guest : t ≠ 0) (receipt : deed.isReceipt = true)
    (fits : deed.Fits t cancelled x.queue) : InLine { x with queue := deed.onQueue t x.queue } := by
  obtain ⟨line, hlines, hline⟩ := h
  exact ⟨line, Deed.lines_of_isTaking hlines guest (Deed.isTaking_of_isReceipt receipt) fits, hline⟩

theorem InLine.own (h : x.InLine) (calm : x.poll.Calm s x.store x.queue deed b q poll') (tally : Tally) :
    InLine ⟨b, q, tally, poll'⟩ := by
  obtain ⟨line, hlines, hline⟩ := h
  have hbound : line = [] ∨ line = [0] := hline.imp_right And.left
  obtain ⟨store, queue, tally, poll⟩ := x
  dsimp only at calm hlines hline
  cases calm with
  | joined waits new =>
    obtain rfl := Poll.line_eq_nil hlines hbound waits new
    exact ⟨[0], hlines.join, .inr ⟨rfl, _, _, _, rfl⟩⟩
  | @sent task _ _ may =>
    obtain rfl := Poll.line_eq_singleton hlines hbound may
    exact ⟨[], hlines.send may task, .inl rfl⟩
  | _ =>
    rcases hline with rfl | ⟨-, _, _, _, hpoll⟩
    · exact ⟨[], hlines, .inl rfl⟩
    · cases hpoll

theorem Reaches.inLine (h : x₀.Reaches s x deeds taken) (lines : x₀.queue.channel.Lines []) (calm : Calm deeds) :
    x.InLine := by
  induction h with
  | start => exact ⟨[], lines, .inl rfl⟩
  | step _ m ih =>
    obtain ⟨hbefore, hlast⟩ := calm_append.1 calm
    cases m with
    | own does met => exact (ih hbefore).own (.of_does does met (hlast _ List.mem_cons_self)) _
    | visited guest receipt fits => exact (ih hbefore).visit guest receipt fits

theorem isUnderway_of_stands {t : Tally} (h : poll.Stands s q t ts p) (goesOn : ∀ result, poll ≠ .done result) :
    poll.isUnderway = true := by
  cases h with
  | telling cut untracked many counted => rcases counted with rfl | ⟨now, rfl⟩ <;> rfl
  | done => exact absurd rfl (goesOn _)
  | _ => rfl

/-- The update that a poll asks for is made if the task admitted it from the first. -/
theorem Books.answers (h : x₀.Books x deeds taken p) (stands : x.poll.Stands s x₀.queue x₀.tally ts p)
    (order : Ascending ts) (hb : x₀.store.Ordered)
    (admits : ∀ c ∈ Poll.spent s x₀.queue ts, x₀.store.Admits c.id c.failure) {count : Nat}
    (stage : x.poll = .retiring task rest count .updating) :
    (x.store.perform default (.updateStatus task.id (Retirement.update s task))).1 = .ok () := by
  rw [stage] at stands
  cases stands with
  | @updating past task rest cut untracked many =>
    have hspent : task ∈ Poll.spent s x₀.queue ts := by
      refine List.mem_filter.2 ⟨?_, by simp [untracked, many]⟩
      rw [cut]
      exact List.mem_append_right past List.mem_cons_self
    -- the poll has retired tasks with smaller identifiers only
    have hagrees : x₀.store.AgreesAt task.id x.store := by
      refine h.store.agreesAt fun c hc => ?_
      have hlt := (List.pairwise_append.1 (cut ▸ order)).2.2 c (List.mem_of_mem_filter hc) task List.mem_cons_self
      omega
    rw [Retirement.update_of_many many]
    exact ((h.store.ordered hb).updateStatus_ok_iff default).2 ((admits task hspent).of_agreesAt hagrees)
  | telling cut untracked many counted => rcases counted with hstage | ⟨now, hstage⟩ <;> cases hstage

/-- Some move leads a poll nearer to its end. -/
theorem Books.advance (h : x₀.Books x deeds taken p) (stands : x.poll.Stands s x₀.queue x₀.tally ts p)
    (order : Ascending ts) (hb : x₀.store.Ordered) (inLine : x.InLine)
    (admits : ∀ c ∈ Poll.spent s x₀.queue ts, x₀.store.Admits c.id c.failure)
    (goesOn : ∀ result, x.poll ≠ .done result) :
    ∃ o r y, x.Moves s o r y ∧ Calm o.toList ∧ y.poll.left y.queue.channel < x.poll.left x.queue.channel := by
  have single {deed : Deed} (hdeed : deed.isFailure = false) : Calm (some deed).toList := by
    intro deed' hmem
    obtain rfl := List.mem_singleton.1 hmem
    exact hdeed
  by_cases hsends : ∃ task rest count, x.poll = .enqueueing task rest count .sending
  · obtain ⟨task, rest, count, hpoll⟩ := hsends
    obtain ⟨line, hlines, hline⟩ := inLine
    obtain ⟨store, queue, tally, poll⟩ := x
    obtain rfl : poll = .enqueueing task rest count .sending := hpoll
    rcases exists_deed_of_sending hlines (hline.imp_right And.left) with
      ⟨hfits, hless⟩ | ⟨hfits, hless⟩ | ⟨deed, t, c, guest, receipt, hfits, hafter, hless⟩
    · exact ⟨some .join, none, _, .own .join (.acted rfl hfits), single rfl, Nat.add_lt_add_left hless _⟩
    · exact ⟨some (.send task), none, _, .own .send (.acted rfl (hfits task)), single rfl,
        Nat.add_lt_add_left hless _⟩
    · refine ⟨none, _, _, .visited guest receipt hfits, fun deed h => (by cases h), ?_⟩
      rw [hafter]
      exact Nat.add_lt_add_left hless _
  · obtain ⟨deed, poll', b', q', hdoes, hmet, hquiet, -, hless⟩ :=
      Poll.advance (isUnderway_of_stands stands goesOn) x.store x.queue
        (fun _ _ _ stage => h.answers stands order hb admits stage) fun task rest count hpoll =>
          hsends ⟨task, rest, count, hpoll⟩
    exact ⟨some deed, none, _, .own hdoes hmet, single hquiet, hless⟩

/-- The poll can be brought to its end while nothing fails. -/
def CanEnd (s : Settings) (x : Polling) : Prop :=
  ∃ y more received result, x.Reaches s y more received ∧ Calm more ∧ y.poll = .done result

theorem CanEnd.of_moves (h : y.CanEnd s) (m : x.Moves s o r y) (quiet : Calm o.toList) : x.CanEnd s := by
  obtain ⟨z, more, received, result, hreach, hmore, hresult⟩ := h
  exact ⟨z, _, _, result, (Reaches.start.step m).trans hreach, calm_append.2 ⟨quiet, hmore⟩, hresult⟩

/-- A poll that has listed the tasks can be brought to its end from wherever it stands. -/
theorem Books.canEnd (h : x₀.Books x deeds taken p) (stands : x.poll.Stands s x₀.queue x₀.tally ts p)
    (order : Ascending ts) (hb : x₀.store.Ordered) (inLine : x.InLine)
    (admits : ∀ c ∈ Poll.spent s x₀.queue ts, x₀.store.Admits c.id c.failure) :
    x.CanEnd s := by
  generalize hleft : x.poll.left x.queue.channel = n
  induction n using Nat.strongRecOn generalizing x deeds taken p with
  | ind n ih =>
    by_cases hover : ∃ result, x.poll = .done result
    · obtain ⟨result, hresult⟩ := hover
      exact ⟨x, [], [], result, .start, fun deed h => (by cases h), hresult⟩
    · obtain ⟨o, r, y, move, hcalm, hless⟩ :=
        h.advance stands order hb inLine admits fun result hresult => hover ⟨result, hresult⟩
      refine CanEnd.of_moves ?_ move hcalm
      cases move with
      | own does met =>
        have hquiet := Poll.Calm.of_does does met (hcalm _ List.mem_cons_self)
        obtain ⟨p', hstands, hbooks⟩ := h.step stands order (h.store.ordered hb) hquiet
        exact ih _ (hleft ▸ hless) hbooks hstands (inLine.own hquiet _) rfl
      | visited guest receipt fits =>
        exact ih _ (hleft ▸ hless) (h.visit receipt fits) stands (inLine.visit guest receipt fits) rfl

theorem moves_starting (stage : x.poll = .starting) :
    x.Moves s (some (.record .poll)) none ⟨x.store, x.queue, x.tally.record .poll, .listing⟩ := by
  obtain ⟨store, queue, tally, poll⟩ := x
  obtain rfl : poll = .starting := stage
  exact .own .record (.acted rfl trivial)

theorem moves_listing (stage : x.poll = .listing) {wall : Timestamp} {tasks : List Task}
    (answer : (x.store.perform wall (.listByStatus .pending)).1 = .ok tasks) :
    ∃ y, x.Moves s (some (.ask (.listByStatus .pending) (.ok tasks))) none y ∧ y.poll.isListed = true := by
  obtain ⟨store, queue, tally, poll⟩ := x
  obtain rfl : poll = .listing := stage
  exact ⟨_, .own (.ask _) (.answered wall answer), Poll.listed_onward 0 tasks⟩

theorem moves_failing {e : StoreError} (stage : x.poll = .failing e) :
    ∃ y, x.Moves s (some (.record .pollError)) none y ∧ y.poll = .done (.error e) := by
  obtain ⟨store, queue, tally, poll⟩ := x
  obtain rfl : poll = .failing e := stage
  exact ⟨_, .own .record (.acted rfl trivial), rfl⟩

section

variable (hb : x₀.store.Ordered) (starts : x₀.poll = .starting) (lines : x₀.queue.channel.Lines [])
  (admits : ∀ c, x₀.store.Offers .pending c → x₀.queue.contains c.id = false → s.maxAttempts ≤ c.attempts →
    x₀.store.Admits c.id c.failure)

include hb starts lines admits

theorem Reaches.canEnd_of_listed (h : x₀.Reaches s x deeds taken) (calm : Calm deeds)
    (later : x.poll.isListed = true) : x.CanEnd s := by
  cases h.sound hb starts with
  | starting stage done books =>
    rw [stage] at later
    cases later
  | listing stage done books =>
    rw [stage] at later
    cases later
  | failing stage done books => exact (not_calm_of_failed done calm).elim
  | failed stage done books => exact (not_calm_of_failed done calm).elim
  | listed answer later unfailed goes =>
    obtain ⟨p, hstands, hbooks⟩ := goes calm
    refine hbooks.canEnd hstands (hb.listed answer).1 hb (h.inLine lines calm) fun c hc => ?_
    obtain ⟨hmem, hkind⟩ := List.mem_filter.1 hc
    simp only [Bool.and_eq_true, Bool.not_eq_true', decide_eq_true_eq] at hkind
    exact admits c ((hb.mem_listed_iff answer).1 hmem) hkind.1 hkind.2

/-- As long as nothing fails a poll can be brought to its end. -/
theorem Reaches.canEnd (h : x₀.Reaches s x deeds taken) (calm : Calm deeds)
    (lists : ∃ wall ts, (x₀.store.perform wall (.listByStatus .pending)).1 = .ok ts) : x.CanEnd s := by
  obtain ⟨wall, tasks, hanswer⟩ := lists
  have single {deed : Deed} (quiet : deed.isFailure = false) : Calm [deed] := List.forall_mem_singleton.2 quiet
  have listing {x : Polling} {deeds : List Deed} {taken : List Task} (h : x₀.Reaches s x deeds taken)
      (calm : Calm deeds) (stage : x.poll = .listing) (hstore : x.store = x₀.store) : x.CanEnd s := by
    obtain ⟨y, move, hlisted⟩ := moves_listing (s := s) stage (hstore ▸ hanswer)
    have hends := (h.step move).canEnd_of_listed hb starts lines admits (calm_append.2 ⟨calm, single rfl⟩) hlisted
    exact hends.of_moves move (single rfl)
  cases h.sound hb starts with
  | starting stage done books =>
    have hends := listing (h.step (moves_starting stage)) (calm_append.2 ⟨calm, single rfl⟩) rfl books.store.eq_of_nil
    exact hends.of_moves (moves_starting stage) (single rfl)
  | listing stage done books => exact listing h calm stage books.store.eq_of_nil
  | failing stage done books => exact h.canEnd_of_listed hb starts lines admits calm (by rw [stage]; rfl)
  | failed stage done books => exact h.canEnd_of_listed hb starts lines admits calm (by rw [stage]; rfl)
  | listed answer later unfailed goes => exact h.canEnd_of_listed hb starts lines admits calm later

end

/-! ### What a poll does -/

/-- A poll that has listed some tasks is over, and this has come of it while others have taken tasks out of the
channel. -/
structure Polled (s : Settings) (x₀ x : Polling) (deeds : List Deed) (taken ts : List Task)
    (result : Except StoreError Nat) : Prop where
  result : result = .ok (Poll.handed s x₀.queue ts).length
  sent : deeds.filterMap Deed.sent? = Poll.handed s x₀.queue ts
  channel : taken ++ x.queue.channel.items = x₀.queue.channel.items ++ Poll.handed s x₀.queue ts
  tracked : ∃ added, x.queue.entries = x₀.queue.entries ++ added ∧
    (added.map fun e => e.task) = Poll.handed s x₀.queue ts
  moved : ∀ c ∈ Poll.spent s x₀.queue ts, Backend.UpdatedAt c.id c.failure x₀.store x.store
  /-- Only the version of such a task and its status are new. -/
  failed : ∀ c ∈ Poll.spent s x₀.queue ts, x₀.store.HasRoomAt c.id → x.store.Offers .failed c.asFailed
  others : ∀ id, (∀ c ∈ Poll.spent s x₀.queue ts, c.id ≠ id) → x₀.store.AgreesAt id x.store
  tally : x.tally =
    { x₀.tally with
      polls := x₀.tally.polls + 1
      enqueued := x₀.tally.enqueued + (Poll.handed s x₀.queue ts).length
      deadLettered := x₀.tally.deadLettered + (Poll.spent s x₀.queue ts).length }

/-- A poll has left the store and the queue alone while others have taken tasks out of the channel. -/
structure LeftAlone (x₀ x : Polling) (deeds : List Deed) (taken : List Task) : Prop where
  store : x.store = x₀.store
  entries : x.queue.entries = x₀.queue.entries
  nextSequence : x.queue.nextSequence = x₀.queue.nextSequence
  channel : taken ++ x.queue.channel.items = x₀.queue.channel.items
  sent : deeds.filterMap Deed.sent? = []

theorem Books.leftAlone (h : x₀.Books x deeds taken p) (retired : p.retired = []) (tracked : p.tracked = [])
    (sent : p.sent = []) : x₀.LeftAlone x deeds taken := by
  have hstore := h.store
  rw [retired] at hstore
  obtain ⟨added, hentries, hadded⟩ := h.entries
  rw [tracked, List.map_eq_nil_iff] at hadded
  have hitems := h.items
  rw [sent, List.append_nil] at hitems
  have hsequence := h.sequence
  rw [tracked] at hsequence
  exact ⟨hstore.eq_of_nil, by rw [hentries, hadded, List.append_nil], hsequence, hitems, h.sent.trans sent⟩

/-- A poll that is over without a failure is past all the tasks that were listed. -/
theorem Reaches.books_of_done (h : x₀.Reaches s x deeds taken) (hb : x₀.store.Ordered) (starts : x₀.poll = .starting)
    (calm : Calm deeds) {result : Except StoreError Nat} (ended : x.poll = .done result) :
    ∃ wall ts, (x₀.store.perform wall (.listByStatus .pending)).1 = .ok ts ∧
      result = .ok (Poll.handed s x₀.queue ts).length ∧ x₀.Books x deeds taken (.upTo s x₀.queue x₀.tally ts) := by
  cases h.sound hb starts with
  | starting stage done books =>
    rw [ended] at stage
    cases stage
  | listing stage done books =>
    rw [ended] at stage
    cases stage
  | failing stage done books =>
    rw [ended] at stage
    cases stage
  | failed stage done books => exact (not_calm_of_failed done calm).elim
  | listed answer later unfailed goes =>
    obtain ⟨p, hstands, hbooks⟩ := goes calm
    rw [ended] at hstands
    cases hstands
    exact ⟨_, _, answer, rfl, hbooks⟩

theorem Books.polled (h : x₀.Books x deeds taken (.upTo s x₀.queue x₀.tally ts)) (order : Ascending ts)
    (offered : ∀ c ∈ ts, x₀.store.Offers .pending c) :
    x₀.Polled s x deeds taken ts (.ok (Poll.handed s x₀.queue ts).length) where
  result := rfl
  sent := h.sent
  channel := h.items
  tracked := h.entries
  moved := fun _ hc => h.store.updatedAt (order.filter _) hc
  failed := fun c hc room => h.store.offers (order.filter _) hc (offered c (List.mem_of_mem_filter hc)) room
  others := fun _ hother => h.store.agreesAt hother
  tally := h.tally

/-- After a poll the queue tracks every task that the store still offers as waiting. -/
theorem Books.tracked_of_pending (h : x₀.Books x deeds taken (.upTo s x₀.queue x₀.tally ts))
    (listed : ∀ c, c ∈ ts ↔ x₀.store.Offers .pending c) (pending : x.store.Offers .pending task) :
    x.queue.contains task.id = true := by
  obtain ⟨hoffered, hother⟩ := (h.store.offers_iff (by decide)).1 pending
  by_contra hcontains
  rw [h.contains_iff, not_or, Bool.not_eq_true] at hcontains
  obtain ⟨huntracked, hnew⟩ := hcontains
  rcases Poll.mem_handed_or_spent (s := s) ((listed task).2 hoffered) huntracked with hhanded | hspent
  · exact hnew ⟨task, hhanded, rfl⟩
  · exact hother task hspent rfl

/-- A poll that follows at once finds nothing to do. -/
theorem Books.repeats (h : x₀.Books x deeds taken (.upTo s x₀.queue x₀.tally ts)) (hb : x₀.store.Ordered)
    (listed : ∀ c, c ∈ ts ↔ x₀.store.Offers .pending c) {more : List Deed} {received : List Task}
    {again : Except StoreError Nat} (follows : Reaches s { x with poll := .starting } y more received)
    (calm : Calm more) (ended : y.poll = .done again) :
    x.LeftAlone y more received ∧ again = .ok 0 ∧ y.tally = { x.tally with polls := x.tally.polls + 1 } := by
  have hordered := h.store.ordered hb
  obtain ⟨wall, ts', answer, rfl, hbooks⟩ := follows.books_of_done hordered rfl calm ended
  have htracked : ∀ c ∈ ts', x.queue.contains c.id = true := by
    intro c hc
    exact h.tracked_of_pending listed ((hordered.mem_listed_iff answer).1 hc)
  have hhanded : Poll.handed s x.queue ts' = [] := List.filter_eq_nil_iff.2 fun c hc => by simp [htracked c hc]
  have hspent : Poll.spent s x.queue ts' = [] := List.filter_eq_nil_iff.2 fun c hc => by simp [htracked c hc]
  obtain ⟨hstore, hentries, hsequence, hchannel, hsent⟩ := hbooks.leftAlone hspent hhanded hhanded
  refine ⟨⟨hstore, hentries, hsequence, hchannel, hsent⟩, ?_, ?_⟩
  · show Except.ok (Poll.handed s x.queue ts').length = _
    rw [hhanded]
    rfl
  · have htally := hbooks.tally
    unfold Poll.Progress.upTo at htally
    dsimp only at htally
    rw [hhanded, hspent] at htally
    exact htally

/-- A poll that follows at once comes to its end. -/
theorem Reaches.canRepeat (h : x₀.Reaches s x deeds taken) (hb : x₀.store.Ordered) (starts : x₀.poll = .starting)
    (calm : Calm deeds) {result : Except StoreError Nat} (ended : x.poll = .done result)
    (lines : x₀.queue.channel.Lines []) : CanEnd s { x with poll := .starting } := by
  obtain ⟨wall, ts, answer, -, hbooks⟩ := h.books_of_done hb starts calm ended
  have hlines : x.queue.channel.Lines [] := by
    obtain ⟨line, hlines, rfl | ⟨-, _, _, _, hsends⟩⟩ := h.inLine lines calm
    · exact hlines
    · rw [ended] at hsends
      cases hsends
  have hstart : Reaches s { x with poll := .starting } { x with poll := .starting } [] [] := .start
  have hordered : ({ x with poll := .starting } : Polling).store.Ordered := hbooks.store.ordered hb
  refine hstart.canEnd hordered rfl hlines ?_ (List.forall_mem_nil _)
    (hbooks.store.lists (by decide) ⟨wall, ts, answer⟩)
  -- the queue tracks whatever is still waiting, so there is nothing to retire
  intro c hoffered huntracked
  have htracked : x.queue.contains c.id = true :=
    hbooks.tracked_of_pending (fun c => hb.mem_listed_iff answer) hoffered
  rw [show x.queue.contains c.id = false from huntracked] at htracked
  cases htracked

/-- A poll whose listing has failed counts that and ends with the error. -/
theorem Sound.missed (h : x₀.Sound s x deeds taken) {e : StoreError}
    (failed : .ask (.listByStatus .pending) (.error e) ∈ deeds) :
    x.CanEnd s ∧ x₀.LeftAlone x deeds taken ∧ ∀ result, x.poll = .done result → result = .error e ∧
      x.tally = { x₀.tally with polls := x₀.tally.polls + 1, pollErrors := x₀.tally.pollErrors + 1 } := by
  cases h with
  | starting stage done books => simp [done] at failed
  | listing stage done books => simp [done] at failed
  | failing stage done books =>
    refine ⟨?_, books.leftAlone rfl rfl rfl, fun result ended => ?_⟩
    · obtain ⟨y, hmove, hover⟩ := moves_failing (s := s) stage
      exact CanEnd.of_moves ⟨y, [], [], _, .start, List.forall_mem_nil _, hover⟩ hmove
        (List.forall_mem_singleton.2 rfl)
    · rw [ended] at stage
      cases stage
  | @failed e' stage done books =>
    refine ⟨⟨x, [], [], _, .start, List.forall_mem_nil _, stage⟩, books.leftAlone rfl rfl rfl, fun result ended => ?_⟩
    obtain rfl : e = e' := by simpa [done] using failed
    rw [ended] at stage
    exact ⟨Poll.done.inj stage, books.tally⟩
  | listed answer later unfailed goes => exact absurd failed (unfailed e)

/-- **Main theorem.**  Nobody else changes the store, others may take tasks out of the channel, and the token does not
fire.  A poll that ends without a failing call has handed over, in ascending order, the waiting tasks that the queue did
not track and that had attempts left; it has moved the other untracked ones to failure, changed nothing else about the
store and the register, and counted as much; a poll that follows it at once finds nothing to do.  If the listing fails
the poll changes nothing but the counters, and ends with the error.  Otherwise, as long as the store answers, the poll
can be brought to its end. -/
theorem Reaches.polls_once (h : x₀.Reaches s x deeds taken) (hb : x₀.store.Ordered) (starts : x₀.poll = .starting) :
    (Calm deeds → ∀ result, x.poll = .done result →
      (∃ ts, Ascending ts ∧ (∀ c, c ∈ ts ↔ x₀.store.Offers .pending c) ∧ x₀.Polled s x deeds taken ts result) ∧
      (x₀.queue.channel.Lines [] → CanEnd s { x with poll := .starting }) ∧
      ∀ y more received again, Reaches s { x with poll := .starting } y more received → Calm more →
        y.poll = .done again → x.LeftAlone y more received ∧ again = .ok 0 ∧
          y.tally = { x.tally with polls := x.tally.polls + 1 }) ∧
    (∀ e, .ask (.listByStatus .pending) (.error e) ∈ deeds → x.CanEnd s ∧ x₀.LeftAlone x deeds taken ∧
      ∀ result, x.poll = .done result → result = .error e ∧
        x.tally = { x₀.tally with polls := x₀.tally.polls + 1, pollErrors := x₀.tally.pollErrors + 1 }) ∧
    (Calm deeds → x₀.queue.channel.Lines [] →
      (∃ wall ts, (x₀.store.perform wall (.listByStatus .pending)).1 = .ok ts) →
      (∀ c, x₀.store.Offers .pending c → x₀.queue.contains c.id = false → s.maxAttempts ≤ c.attempts →
        x₀.store.Admits c.id c.failure) → x.CanEnd s) := by
  refine ⟨fun calm result ended => ?_, fun e failed => ?_, fun calm lines lists admits => ?_⟩
  · obtain ⟨wall, ts, answer, rfl, hbooks⟩ := h.books_of_done hb starts calm ended
    have horder : Ascending ts := (hb.listed answer).1
    have hlisted : ∀ c, c ∈ ts ↔ x₀.store.Offers .pending c := fun c => hb.mem_listed_iff answer
    have hpolled := hbooks.polled horder fun c hc => (hlisted c).1 hc
    exact ⟨⟨ts, horder, hlisted, hpolled⟩, h.canRepeat hb starts calm ended, fun y more received again follows hcalm =>
      hbooks.repeats hb hlisted follows hcalm⟩
  · exact (h.sound hb starts).missed failed
  · exact h.canEnd hb starts lines admits calm lists

/-- Of three waiting tasks one is new, one has used up its attempts, and one is tracked: the poll hands over the first
and moves the second to failure. -/
theorem polls_once_of_threeTasks : ∃ (x₀ x : Polling) (deeds : List Deed) (usedUp : Task),
    x₀.store.Ordered ∧ x₀.poll = .starting ∧ x₀.Reaches .standard x deeds [] ∧ Calm deeds ∧ x.poll = .done (.ok 1) ∧
      x₀.store.Offers .pending usedUp ∧ x.store.Offers .failed usedUp.asFailed := by
  let new : Task := { (default : Task) with id := 1 }
  let usedUp : Task := { (default : Task) with id := 2, attempts := 3 }
  let tracked : Task := { (default : Task) with id := 3 }
  let b : Backend := .memory ⟨3, [new, usedUp, tracked]⟩
  let q : Queue := (Queue.empty 100).track default tracked
  let x₀ : Polling := ⟨b, q, .empty, .starting⟩
  have own {x y : Polling} (deed : Deed) (h : ∃ deeds, x₀.Reaches .standard x deeds [] ∧ Calm deeds)
      (quiet : deed.isFailure = false) (m : x.Moves .standard (some deed) none y) :
      ∃ deeds, x₀.Reaches .standard y deeds [] ∧ Calm deeds := by
    obtain ⟨deeds, hreach, hcalm⟩ := h
    exact ⟨deeds ++ [deed], hreach.step m, calm_append.2 ⟨hcalm, List.forall_mem_singleton.2 quiet⟩⟩
  -- the first task is handed over
  let q' : Queue := { q.track default new with channel := (q.channel.join 0).send 0 new }
  have hlisted : ∃ deeds, x₀.Reaches .standard
      ⟨b, q, Tally.empty.record .poll, .checking new [usedUp, tracked] 0⟩ deeds [] ∧ Calm deeds := by
    have hstart := own (.record .poll) ⟨[], .start, List.forall_mem_nil _⟩ rfl (.own .record (.acted rfl trivial))
    exact own (.ask (.listByStatus .pending) (.ok [new, usedUp, tracked])) hstart rfl
      (.own (.ask _) (.answered default rfl))
  have hsent : ∃ deeds, x₀.Reaches .standard
      ⟨b, q', Tally.empty.record .poll, .counting [usedUp, tracked] 1⟩ deeds [] ∧ Calm deeds := by
    have hlooked := own (.look 1 false) hlisted rfl (.own (.look false) (.acted rfl rfl))
    have htracked := own (.track default new) hlooked rfl (.own (.track default) (.acted rfl trivial))
    have hjoined := own .join htracked rfl (.own .join (.acted rfl ⟨rfl, List.not_mem_nil⟩))
    exact own (.send new) hjoined rfl (.own .send (.acted rfl rfl))
  -- the second one is retired, and the third one is passed over
  have hretiring : ∃ deeds, x₀.Reaches .standard
      ⟨b, q', (Tally.empty.record .poll).record .enqueued, .retiring usedUp [tracked] 1 .updating⟩ deeds [] ∧
        Calm deeds := by
    have hcounted := own (.record .enqueued) hsent rfl (.own .record (.acted rfl trivial))
    exact own (.look 2 false) hcounted rfl (.own (.look false) (.acted rfl rfl))
  have hupdated := own (.ask (.updateStatus 2 usedUp.failure) (.ok ())) hretiring rfl
    (.own (.ask _) (.answered default rfl))
  have hcounted := own (.record .deadLettered) hupdated rfl (.own .record (.acted rfl trivial))
  have hdated := own (.readWallClock default) hcounted rfl (.own (.readWallClock default) (.acted rfl trivial))
  have htold := own (.notify usedUp.userId (.ofTask usedUp .failed default)) hdated rfl
    (.own .notify (.acted rfl trivial))
  obtain ⟨deeds, hover, hcalm⟩ := own (.look 3 true) htold rfl (.own (.look true) (.acted rfl rfl))
  have hordered : x₀.store.Ordered := ⟨by decide, by decide⟩
  obtain ⟨⟨ts, -, hoffered, hpolled⟩, -⟩ := (hover.polls_once hordered rfl).1 hcalm (.ok 1) rfl
  have hspent : usedUp ∈ Poll.spent .standard x₀.queue ts :=
    List.mem_filter.2 ⟨(hoffered usedUp).2 ⟨rfl, rfl⟩, rfl⟩
  exact ⟨x₀, _, deeds, usedUp, hordered, rfl, hover, hcalm, rfl, ⟨rfl, rfl⟩, hpolled.failed usedUp hspent trivial⟩

end Polling

end Backlog.Dispatch

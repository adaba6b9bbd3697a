import Backlog.Proofs.Dispatch.Handing
import Backlog.Proofs.Store.Sound

/-!
# What a dispatcher may rely on in its first tick

While nobody else changes a status or removes a task, all that the dispatcher has listed and not dealt with stands in
the store as it was listed, and no place in the channel is reserved for anybody but the dispatcher.

Key facts: the update of a listed task is made (`Fresh.retires`), and whatever happens the station stays sound
(`Station.Sound.step`).
-/

namespace Backlog

/-! ### The line of the senders -/

namespace Channel

/-- A channel in order to which the dispatcher alone sends, with the dispatcher in line or not. -/
structure Lines (c : Channel) (line : List Ticket) : Prop where
  fits : c.Fits
  capacity_pos : 0 < c.capacity
  receivers : 0 ∉ c.receivers
  senders : c.granted ++ c.senders = line

variable {c c' : Channel} {line : List Ticket} {task : Task} {t : Ticket}

/-- Whoever takes a task leaves the line as it is, whether or not a place is passed on. -/
theorem Lines.takeFor (h : c.Lines line) (htake : c.takeFor t = some (task, c')) : c'.Lines line := by
  obtain ⟨-, hcapacity, hfits⟩ := takeFor_spec htake
  have hpos : 0 < c'.capacity := hcapacity ▸ h.capacity_pos
  unfold Channel.takeFor at htake
  split at htake
  · unfold take at htake
    split at htake
    · cases htake
    · cases htake
      refine ⟨hfits h.fits, hpos, ?_, ?_⟩
      · rw [receivers_passOn]
        exact fun hmem => h.receivers (List.mem_of_mem_tail hmem)
      · rw [line_passOn]
        exact h.senders
  · cases htake

theorem Lines.join (h : c.Lines []) : (c.join 0).Lines [0] := by
  obtain ⟨hgranted, hsenders⟩ := List.append_eq_nil_iff.1 h.senders
  refine ⟨fits_join h.fits 0, (capacity_join c 0).symm ▸ h.capacity_pos, ?_, ?_⟩
  · unfold Channel.join
    split <;> exact h.receivers
  · unfold Channel.join
    split
    · show c.granted ++ [0] ++ c.senders = [0]
      rw [hgranted, hsenders]
      rfl
    · show c.granted ++ (c.senders ++ [0]) = [0]
      rw [hgranted, hsenders]
      rfl

theorem Lines.send (h : c.Lines [0]) (may : c.maySend 0 = true) (task : Task) : (c.send 0 task).Lines [] := by
  have hmem : 0 ∈ c.granted := List.contains_iff_mem.1 may
  obtain ⟨hgranted, hsenders⟩ : c.granted = [0] ∧ c.senders = [] := by
    rcases List.append_eq_singleton_iff.1 h.senders with ⟨hnil, -⟩ | h
    · rw [hnil] at hmem
      cases hmem
    · exact h
  refine ⟨fits_send h.fits hmem task, h.capacity_pos, h.receivers, ?_⟩
  show c.granted.erase 0 ++ c.senders = []
  rw [hgranted, hsenders]
  rfl

end Channel

namespace Dispatch

open Store

variable {s : Settings} {b b' : Backend} {q q' : Queue} {m : Memory} {task : Task} {deed : Deed} {rest : List Task}
  {line : List Ticket} {wakes : Nat} {handed : List Task} {a : Status}

/-- Those who only take tasks leave the line of the senders as it is. -/
theorem Deed.lines_of_isTaking {t : Ticket} {cancelled : Bool} (h : q.channel.Lines line) (guest : t ≠ 0)
    (taking : deed.isTaking = true) (fits : deed.Fits t cancelled q) : (deed.onQueue t q).channel.Lines line := by
  cases deed with
  | take task =>
    obtain ⟨c, hc, hafter⟩ := fits.exists_takeFor
    rw [hafter]
    exact h.takeFor hc
  | untrack id tracked => exact h
  | queueUp =>
    refine ⟨⟨h.fits.1, h.fits.2⟩, h.capacity_pos, fun hmem => ?_, h.senders⟩
    rcases List.mem_append.1 hmem with hmem | hmem
    · exact h.receivers hmem
    · exact guest (List.mem_singleton.1 hmem).symm
  | turnAway =>
    exact ⟨⟨h.fits.1, h.fits.2⟩, h.capacity_pos, fun hmem => h.receivers (List.mem_of_mem_erase hmem), h.senders⟩
  | _ => cases taking

/-! ### The tasks that are listed -/

/-- The tasks stand in the store as they were listed with a status, in ascending order. -/
def Fresh (m : Memory) (a : Status) (tasks : List Task) : Prop :=
  Ascending tasks ∧ ∀ c ∈ tasks, c.status = a ∧ (Backend.memory m).Retains False c

namespace Fresh

theorem tail (h : Fresh m a (task :: rest)) : Fresh m a rest :=
  ⟨(List.pairwise_cons.1 h.1).2, fun c hc => h.2 c (List.mem_cons_of_mem _ hc)⟩

theorem retain {m' : Memory} {tasks : List Task} (h : Fresh m a tasks)
    (keeps : ∀ c, (Backend.memory m).Retains False c → (Backend.memory m').Retains False c) : Fresh m' a tasks :=
  ⟨h.1, fun c hc => ⟨(h.2 c hc).1, keeps c (h.2 c hc).2⟩⟩

theorem of_withStatus (h : m.Ordered) (a : Status) : Fresh m a (m.withStatus a) := by
  refine ⟨h.ascending.filter _, fun c hc => ?_⟩
  obtain ⟨hmem, hstatus⟩ := List.mem_filter.1 hc
  exact ⟨by simpa using hstatus, Backend.Keeps.retains (b := .memory m) (h.find?_of_mem hmem)⟩

/-- The retirement of the first of the tasks is made. -/
theorem retires (h : Fresh m a (task :: rest)) (sound : b.Sound s m)
    (due : task.status = .processing ∨ task.status = .pending ∧ s.maxAttempts ≤ task.attempts) (wall : Timestamp) :
    (b.perform wall (.updateStatus task.id (Retirement.update s task))).1 = .ok () ∧
      ∃ m', (b.perform wall (.updateStatus task.id (Retirement.update s task))).2.Sound s m' ∧ Fresh m' a rest := by
  obtain ⟨-, _, ⟨text, -, rfl⟩, hfind⟩ := h.2 task List.mem_cons_self
  have hstored : m.find? task.id = some { task with text } := hfind
  have hsized := sound.sized _ (Memory.mem_of_find? hstored)
  have hmovable : task.status.canMoveTo (Retirement.target s task) = true := by
    unfold Retirement.target
    rcases due with hstatus | ⟨hstatus, hmany⟩
    · rw [hstatus]
      split <;> rfl
    · rw [hstatus, if_pos hmany]
      rfl
  have hrefusal : (Retirement.update s task).refusal? { task with text } = none :=
    StatusUpdate.refusal?_eq_none_iff.2 ⟨fun v hv => Option.some.inj hv, hmovable⟩
  have hafter : (((Retirement.update s task).adjusted b.timeOf).applyTo { task with text }).Sized s := by
    rw [show ((Retirement.update s task).adjusted b.timeOf).applyTo { task with text } =
      { (Retirement.update s task).applyTo task with text } from rfl, Retirement.applyTo_update]
    refine ⟨hsized.attempts_le, fun hdue => ?_⟩
    -- what has been retired is not moved again
    have htarget : Retirement.target s task = .processing ∨
      Retirement.target s task = .pending ∧ s.maxAttempts ≤ task.attempts := hdue
    unfold Retirement.target at htarget
    rcases htarget with htarget | ⟨htarget, hmany⟩
    · split at htarget <;> cases htarget
    · rw [if_pos hmany] at htarget
      cases htarget
  obtain ⟨hok, m', hsound, hkeeps⟩ := sound.updateStatus wall hstored hrefusal (hsized.room due) hafter
  refine ⟨hok, m', hsound, h.tail.1, fun c hc => ⟨(h.tail.2 c hc).1, hkeeps c ?_ (h.tail.2 c hc).2⟩⟩
  exact Int.ne_of_gt ((List.pairwise_cons.1 h.1).1 c hc)

end Fresh

/-! ### Where the dispatcher may stand -/

/-- A pass of the reclaiming that has listed tasks in processing and has still to deal with them. -/
def Reclaim.Sound (m : Memory) : Reclaim → Prop
  | listing => True
  | dating tasks => Fresh m .processing tasks
  | guarding _ task rest _ => Fresh m .processing (task :: rest)
  | checking _ task rest _ => Fresh m .processing (task :: rest)
  | retiring _ task rest _ .updating => Fresh m .processing (task :: rest)
  | retiring _ _ _ _ (.done _) => False
  | retiring _ _ rest _ _ => Fresh m .processing rest
  | done (.ok _) => True
  | done (.error _) => False

/-- A poll that has listed waiting tasks and has still to deal with them, in line at the channel or not. -/
def Poll.Sound (s : Settings) (m : Memory) (line : List Ticket) : Poll → Prop
  | starting => line = []
  | listing => line = []
  | failing _ => False
  | checking task rest _ => line = [] ∧ Fresh m .pending (task :: rest)
  | retiring task rest _ .updating => line = [] ∧ s.maxAttempts ≤ task.attempts ∧ Fresh m .pending (task :: rest)
  | retiring _ _ _ (.done _) => False
  | retiring _ rest _ _ => line = [] ∧ Fresh m .pending rest
  | enqueueing _ rest _ .tracking => line = [] ∧ Fresh m .pending rest
  | enqueueing _ rest _ .sending => (line = [] ∨ line = [0]) ∧ Fresh m .pending rest
  | enqueueing _ _ _ _ => False
  | counting rest _ => line = [] ∧ Fresh m .pending rest
  | done (.ok _) => line = []
  | done (.error _) => False

/-- A dispatcher that has begun its first tick or is about to, or has come to its end, with the tasks that it has handed
over. -/
def Dispatcher.Sound (s : Settings) (m : Memory) (line : List Ticket) (wakes : Nat) (handed : List Task) :
    Dispatcher → Prop
  | starting => wakes = 0 ∧ handed = [] ∧ line = []
  | timing => wakes = 0 ∧ handed = [] ∧ line = []
  | waiting true _ => wakes = 0 ∧ handed = [] ∧ line = []
  | reclaiming _ _ pass => wakes = 1 ∧ handed = [] ∧ line = [] ∧ pass.Sound m ∧ ∀ result, pass ≠ .done result
  | polling _ poll => wakes = 1 ∧ poll.InOrder handed ∧ poll.Sound s m line ∧ ∀ result, poll ≠ .done result
  | waiting false _ => wakes = 1 ∧ Ascending handed ∧ line = []
  | stopping => False
  | stopped => False

namespace Reclaim

variable {pass pass' : Reclaim} {threshold : Duration}

private theorem sound_onward (now : Timestamp) (count : Nat) (h : Fresh m .processing rest) :
    (onward now count rest).Sound m := by
  cases rest with
  | nil => trivial
  | cons task rest => exact h

theorem Sound.retain {m' : Memory} (h : pass.Sound m)
    (keeps : ∀ c, (Backend.memory m).Retains False c → (Backend.memory m').Retains False c) : pass.Sound m' := by
  cases pass with
  | retiring now task rest count stage =>
    cases stage with
    | done moved => exact h
    | _ => exact Fresh.retain h keeps
  | done result => cases result <;> exact h
  | listing => trivial
  | _ => exact Fresh.retain h keeps

theorem Sound.step (h : pass.Sound m) (sound : b.Sound s m) (does : (pass.next s threshold).Does pass deed pass')
    (met : deed.Met b q b' q') (calm : deed.isFailure = false) : ∃ m', b'.Sound s m' ∧ pass'.Sound m' := by
  cases Calm.of_does does met calm with
  | listed wall answer =>
    rw [sound.listed wall .processing] at answer
    cases answer
    exact ⟨m, sound, Fresh.of_withStatus sound.ordered _⟩
  | dated now => exact ⟨m, sound, sound_onward now 0 h⟩
  | passed => exact ⟨m, sound, h⟩
  | chosen untracked stale => exact ⟨m, sound, h⟩
  | skipped kept => exact ⟨m, sound, sound_onward _ _ (Fresh.tail h)⟩
  | retired hstage =>
    cases hstage with
    | updated wall answer =>
      obtain ⟨-, m', hsound, hrest⟩ := Fresh.retires h sound (.inl (h.2 _ List.mem_cons_self).1) wall
      exact ⟨m', hsound, hrest⟩
    | counted => exact ⟨m, sound, h⟩
    | dated now => exact ⟨m, sound, h⟩
    | told now => exact ⟨m, sound, sound_onward _ _ h⟩

end Reclaim

namespace Poll

variable {poll poll' : Poll}

private theorem sound_onward (count : Nat) (h : Fresh m .pending rest) : (onward count rest).Sound s m [] := by
  cases rest with
  | nil => rfl
  | cons task rest => exact ⟨rfl, h⟩

theorem Sound.retain {m' : Memory} (h : poll.Sound s m line)
    (keeps : ∀ c, (Backend.memory m).Retains False c → (Backend.memory m').Retains False c) :
    poll.Sound s m' line := by
  cases poll with
  | checking task rest count => exact ⟨h.1, h.2.retain keeps⟩
  | retiring task rest count stage =>
    cases stage with
    | updating => exact ⟨h.1, h.2.1, h.2.2.retain keeps⟩
    | done moved => exact h
    | _ => exact ⟨h.1, h.2.retain keeps⟩
  | enqueueing task rest count stage =>
    cases stage with
    | tracking => exact ⟨h.1, h.2.retain keeps⟩
    | sending => exact ⟨h.1, h.2.retain keeps⟩
    | _ => exact h
  | counting rest count => exact ⟨h.1, h.2.retain keeps⟩
  | done result => cases result <;> exact h
  | _ => exact h

/-- Whoever joins the line was not in it. -/
theorem line_eq_nil (lines : q.channel.Lines line) (hline : line = [] ∨ line = [0])
    (waits : q.channel.maySend 0 = false) (new : 0 ∉ q.channel.senders) : line = [] := by
  rcases hline with hline | rfl
  · exact hline
  · rcases List.mem_append.1 (lines.senders ▸ List.mem_singleton_self 0) with hmem | hmem
    · rw [show q.channel.maySend 0 = true from List.contains_iff_mem.2 hmem] at waits
      cases waits
    · exact absurd hmem new

/-- Whoever may send has been in line. -/
theorem line_eq_singleton (lines : q.channel.Lines line) (hline : line = [] ∨ line = [0])
    (may : q.channel.maySend 0 = true) : line = [0] := by
  rcases hline with rfl | hline
  · have hmem : 0 ∈ q.channel.granted := List.contains_iff_mem.1 may
    rw [(List.append_eq_nil_iff.1 lines.senders).1] at hmem
    cases hmem
  · exact hline

theorem Sound.step (h : poll.Sound s m line) (sound : b.Sound s m) (lines : q.channel.Lines line)
    (does : (poll.next s).Does poll deed poll') (met : deed.Met b q b' q') (calm : deed.isFailure = false) :
    ∃ m' line', b'.Sound s m' ∧ q'.channel.Lines line' ∧ poll'.Sound s m' line' := by
  cases Calm.of_does does met calm with
  | started => exact ⟨m, line, sound, lines, h⟩
  | listed wall answer =>
    obtain rfl : line = [] := h
    rw [sound.listed wall .pending] at answer
    cases answer
    exact ⟨m, [], sound, lines, sound_onward 0 (Fresh.of_withStatus sound.ordered _)⟩
  | failed => exact h.elim
  | skipped tracked =>
    obtain ⟨rfl, hfresh⟩ := h
    exact ⟨m, [], sound, lines, sound_onward _ hfresh.tail⟩
  | spent untracked many =>
    obtain ⟨rfl, hfresh⟩ := h
    exact ⟨m, [], sound, lines, rfl, many, hfresh⟩
  | chosen untracked few =>
    obtain ⟨rfl, hfresh⟩ := h
    exact ⟨m, [], sound, lines, rfl, hfresh.tail⟩
  | retired hstage =>
    cases hstage with
    | updated wall answer =>
      obtain ⟨rfl, hmany, hfresh⟩ := h
      obtain ⟨-, m', hsound, hrest⟩ := hfresh.retires sound (.inr ⟨(hfresh.2 _ List.mem_cons_self).1, hmany⟩) wall
      exact ⟨m', [], hsound, lines, rfl, hrest⟩
    | counted => exact ⟨m, line, sound, lines, h⟩
    | dated now => exact ⟨m, line, sound, lines, h⟩
    | told now =>
      obtain ⟨rfl, hfresh⟩ := h
      exact ⟨m, [], sound, lines, sound_onward _ hfresh⟩
  | tracked now =>
    obtain ⟨rfl, hfresh⟩ := h
    exact ⟨m, [], sound, lines, .inl rfl, hfresh⟩
  | joined waits new =>
    obtain ⟨hline, hfresh⟩ := h
    obtain rfl := line_eq_nil lines hline waits new
    exact ⟨m, [0], sound, lines.join, .inr rfl, hfresh⟩
  | sent may =>
    obtain ⟨hline, hfresh⟩ := h
    obtain rfl := line_eq_singleton lines hline may
    exact ⟨m, [], sound, lines.send may _, rfl, hfresh⟩
  | withdrawn => exact h.elim
  | counted =>
    obtain ⟨rfl, hfresh⟩ := h
    exact ⟨m, [], sound, lines, sound_onward _ hfresh⟩

end Poll

/-! ### A pass and a poll are no ticks of their own -/

private theorem Retirement.isWake_of_does {task : Task} {stage stage' : Retirement}
    (does : (stage.next s task).Does stage deed stage') : deed.isWake = false := by
  cases stage <;> cases does <;> rfl

theorem Reclaim.isWake_of_does {threshold : Duration} {pass pass' : Reclaim}
    (does : (pass.next s threshold).Does pass deed pass') : deed.isWake = false := by
  cases pass with
  | retiring now task rest count stage =>
    obtain ⟨stage', hdoes, -⟩ := does_retiring does
    exact Retirement.isWake_of_does hdoes
  | _ => cases does <;> rfl

theorem Poll.isWake_of_does {poll poll' : Poll} (does : (poll.next s).Does poll deed poll') :
    deed.isWake = false := by
  cases poll with
  | retiring task rest count stage =>
    obtain ⟨stage', hdoes, -⟩ := does_retiring does
    exact Retirement.isWake_of_does hdoes
  | enqueueing task rest count stage =>
    obtain ⟨stage', hdoes, -⟩ := does_enqueueing does
    cases stage <;> cases hdoes <;> rfl
  | _ => cases does <;> rfl

/-! ### The station stays sound -/

private theorem Dispatcher.sound_afterReclaim {pass : Reclaim} {due : Instant} {threshold : Duration}
    (h : pass.Sound m) : (afterReclaim due threshold pass).Sound s m [] 1 [] := by
  cases pass with
  | done result => exact ⟨rfl, rfl, rfl, fun _ h => by cases h⟩
  | _ => exact ⟨rfl, rfl, rfl, h, fun _ h => by cases h⟩

private theorem Dispatcher.sound_afterPoll {poll : Poll} {due : Instant} (order : poll.InOrder handed)
    (h : poll.Sound s m line) : (afterPoll due poll).Sound s m line 1 handed := by
  cases poll with
  | done result =>
    cases result with
    | ok count =>
      have hall : Ascending (handed ++ []) := order
      rw [List.append_nil] at hall
      exact ⟨rfl, hall, h⟩
    | error e => exact h.elim
  | _ => exact ⟨rfl, order, h, fun _ h => by cases h⟩

theorem Dispatcher.Sound.step {d d' : Dispatcher} (h : d.Sound s m line wakes handed) (sound : b.Sound s m)
    (lines : q.channel.Lines line) (hb : b.Ordered) (does : (d.next s).Does d deed d') (met : deed.Met b q b' q')
    (calm : deed.isFailure = false) (once : wakes + [deed].countP Deed.isWake ≤ 1) :
    ∃ m' line', b'.Sound s m' ∧ q'.channel.Lines line' ∧
      d'.Sound s m' line' (wakes + [deed].countP Deed.isWake) (handed ++ deed.sent?.toList) := by
  cases d with
  | starting =>
    obtain ⟨rfl, rfl, rfl⟩ := h
    cases does with
    | showRunning =>
      cases met with
      | acted noAsk fits => exact ⟨m, [], sound, lines, rfl, rfl, rfl⟩
  | timing =>
    obtain ⟨rfl, rfl, rfl⟩ := h
    cases does with
    | readClock moment =>
      cases met with
      | acted noAsk fits => exact ⟨m, [], sound, lines, rfl, rfl, rfl⟩
  | waiting first due =>
    cases does with
    | wake moment =>
      cases met with
      | acted noAsk fits =>
        cases first with
        | true =>
          obtain ⟨rfl, rfl, rfl⟩ := h
          exact ⟨m, [], sound, lines, rfl, rfl, rfl, trivial, fun _ h => by cases h⟩
        | false =>
          obtain ⟨rfl, -⟩ := h
          have htwice : 1 + 1 ≤ 1 := once
          omega
    | rise hy =>
      cases met with
      | acted noAsk fits => cases fits
  | reclaiming due threshold pass =>
    obtain ⟨rfl, rfl, rfl, hpass, -⟩ := h
    obtain ⟨pass', hdoes, rfl⟩ := does_reclaiming does
    obtain ⟨m', hsound, hpass'⟩ := hpass.step sound hdoes met calm
    have haside := Reclaim.isAside_of_does hdoes
    obtain rfl := met.queue_of_isAside haside
    rw [List.countP_singleton, Reclaim.isWake_of_does hdoes, Deed.sent?_of_isAside haside]
    exact ⟨m', [], hsound, lines, sound_afterReclaim hpass'⟩
  | polling due poll =>
    obtain ⟨rfl, horder, hpoll, -⟩ := h
    obtain ⟨poll', hdoes, rfl⟩ := does_polling does
    obtain ⟨m', line', hsound, hlines, hpoll'⟩ := hpoll.step sound lines hdoes met calm
    rw [List.countP_singleton, Poll.isWake_of_does hdoes]
    exact ⟨m', line', hsound, hlines, sound_afterPoll (horder.step hb hdoes met) hpoll'⟩
  | stopping => exact h.elim
  | stopped => exact h.elim

theorem Dispatcher.Sound.retain {d : Dispatcher} {m' : Memory} (h : d.Sound s m line wakes handed)
    (keeps : ∀ c, (Backend.memory m).Retains False c → (Backend.memory m').Retains False c) :
    d.Sound s m' line wakes handed := by
  cases d with
  | waiting first due => cases first <;> exact h
  | reclaiming due threshold pass => exact ⟨h.1, h.2.1, h.2.2.1, h.2.2.2.1.retain keeps, h.2.2.2.2⟩
  | polling due poll => exact ⟨h.1, h.2.1, h.2.2.1.retain keeps, h.2.2.2⟩
  | _ => exact h

namespace Station

/-- A station in its first tick, on which the dispatcher may rely, after some deeds. -/
def Sound (s : Settings) (x : Station) (deeds : List Deed) : Prop :=
  ∃ m line, x.store.Sound s m ∧ x.queue.channel.Lines line ∧
    x.dispatcher.Sound s m line (deeds.countP Deed.isWake) (deeds.filterMap Deed.sent?)

variable {others : Request → Prop} {x y : Station} {o : Option Deed} {deeds : List Deed}

theorem Sound.step (h : x.Sound s deeds) (peaceful : ∀ r, others r → r.isPeaceful = true)
    (move : x.Moves s others o y) (calm : ∀ deed ∈ o.toList, deed.isFailure = false)
    (once : (deeds ++ o.toList).countP Deed.isWake ≤ 1) : y.Sound s (deeds ++ o.toList) := by
  obtain ⟨m, line, hstore, hlines, hstage⟩ := h
  cases move with
  | @own deed d b q does met =>
    rw [show (some deed).toList = [deed] from rfl, List.countP_append] at once
    obtain ⟨m', line', hstore', hlines', hstage'⟩ :=
      hstage.step hstore hlines hstore.backend_ordered does met (calm _ List.mem_cons_self) once
    refine ⟨m', line', hstore', hlines', ?_⟩
    rw [show (some deed).toList = [deed] from rfl, List.countP_append, List.filterMap_append,
      Deed.filterMap_sent?]
    exact hstage'
  | requested r wall may =>
    obtain ⟨m', hstore', hkeeps⟩ := hstore.perform_of_isPeaceful wall (peaceful r may)
    rw [show (none : Option Deed).toList = [] from rfl, List.append_nil]
    exact ⟨m', line, hstore', hlines, hstage.retain hkeeps⟩
  | visited guest taking fits =>
    rw [show (none : Option Deed).toList = [] from rfl, List.append_nil]
    exact ⟨m, line, hstore, Deed.lines_of_isTaking hlines guest taking fits, hstage⟩

theorem Reaches.sound (h : x.Reaches s others y deeds) (hx : x.Sound s [])
    (peaceful : ∀ r, others r → r.isPeaceful = true) (calm : ∀ deed ∈ deeds, deed.isFailure = false)
    (once : deeds.countP Deed.isWake ≤ 1) : y.Sound s deeds := by
  induction h with
  | start => exact hx
  | step _ move ih =>
    have hfewer := once
    rw [List.countP_append] at hfewer
    have hbefore := ih (fun deed hdeed => calm deed (List.mem_append_left _ hdeed)) (by omega)
    exact hbefore.step peaceful move (fun deed hdeed => calm deed (List.mem_append_right _ hdeed)) once

end Station

end Dispatch

end Backlog

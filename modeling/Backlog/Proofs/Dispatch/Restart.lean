import Backlog.Proofs.Dispatch.Completion

/-!
# The first tick after a restart

With `reclaimOnStart` the first tick takes back every task in processing and then polls, with an empty register.  One
task is followed through both.

Key facts: what the dispatcher has made of the task is kept up by every step (`Dispatcher.Restarts.step`), and when the
tick is over no task is lost (`Station.Reaches.nothing_lost`).
-/

namespace Backlog

open Store

/-- The task as it waits after a restart. -/
def Task.resumed (t : Task) : Task :=
  if t.status = .processing then { t with status := .pending, version := t.version + 1 } else t

/-- What has become of a task by the end of a first tick, with the tasks that were handed over in it. -/
structure Task.Restarted (fixed : Prop) (s : Settings) (t : Task) (b : Backend) (handed : List Task) : Prop where
  /-- A task that can still be tried waits and is handed over once, just as it waits. -/
  resumed : t.status = .pending ∨ t.status = .processing → t.attempts < s.maxAttempts →
    b.Retains fixed t.resumed ∧ ∃ c, handed.filter (fun d => d.id = t.id) = [c] ∧ t.resumed.Same fixed c
  /-- A task that has used up its attempts has failed. -/
  failed : t.status = .pending ∨ t.status = .processing → s.maxAttempts ≤ t.attempts →
    b.Retains fixed { t with status := .failed, version := t.version + 1 } ∧
      handed.filter (fun d => d.id = t.id) = []
  /-- A task that has come to its end is left alone. -/
  settled : t.status = .completed ∨ t.status = .failed →
    b.Retains fixed t ∧ handed.filter (fun d => d.id = t.id) = []

namespace Dispatch

variable {fixed : Prop} {s : Settings} {b b' : Backend} {q q' : Queue} {t : Task} {deed : Deed} {handed : List Task}

/-! ### Reclaiming whatever the age -/

/-- What a pass that goes by no age makes of a task. -/
def Reclaim.takenBack (s : Settings) (t : Task) : Task :=
  if t.status = .processing then Retirement.retired s t else t

theorem Reclaim.outcome_zero (s : Settings) (now : Timestamp) (t : Task) : outcome s .zero now t = takenBack s t := by
  unfold outcome takenBack
  rw [isStale_zero]
  simp only [and_true]

theorem Reclaim.takenBack_id (s : Settings) (t : Task) : (takenBack s t).id = t.id := by
  unfold takenBack
  split <;> rfl

theorem Reclaim.takenBack_attempts (s : Settings) (t : Task) : (takenBack s t).attempts = t.attempts := by
  unfold takenBack
  split <;> rfl

/-- A task that waits after the pass with its attempts used up has been left alone by it. -/
theorem Reclaim.room_takenBack (h : t.Sized s) (waits : (Reclaim.takenBack s t).status = .pending)
    (many : s.maxAttempts ≤ (Reclaim.takenBack s t).attempts) : (Reclaim.takenBack s t).HasRoom := by
  rw [Reclaim.takenBack_attempts] at many
  unfold Reclaim.takenBack at waits ⊢
  split at waits
  · have htarget : Retirement.target s t = .pending := waits
    unfold Retirement.target at htarget
    rw [if_pos many] at htarget
    cases htarget
  · rename_i hnot
    rw [if_neg hnot]
    exact h.room (.inr ⟨waits, many⟩)

/-! ### A task in the first tick -/

/-- What the dispatcher has made of a task in its first tick, with the tasks that it has handed over, and what it has
still to do. -/
def Dispatcher.Restarts (fixed : Prop) (s : Settings) (t : Task) (b : Backend) (q : Queue) (handed : List Task) :
    Dispatcher → Prop
  | starting => q.entries = [] ∧ b.Retains fixed t
  | timing => q.entries = [] ∧ b.Retains fixed t
  | waiting true _ => q.entries = [] ∧ b.Retains fixed t
  | reclaiming _ threshold pass => q.entries = [] ∧ threshold = .zero ∧ ∃ now, pass.Carries fixed s .zero now t b
  | polling _ poll => poll.Carries fixed s (Reclaim.takenBack s t) b q handed
  | waiting false _ => Poll.Going fixed s (Reclaim.takenBack s t) b handed []
  | stopping => False
  | stopped => False

namespace Dispatcher

variable {d d' : Dispatcher}

private theorem restarts_afterReclaim {pass : Reclaim} {now : Timestamp} (due : Instant) (empty : q.entries = [])
    (h : pass.Carries fixed s .zero now t b) : (afterReclaim due .zero pass).Restarts fixed s t b q [] := by
  cases pass with
  | done result =>
    cases result with
    | ok count =>
      refine ⟨rfl, empty, ?_⟩
      rw [← Reclaim.outcome_zero s now]
      exact h
    | error e => exact h.elim
  | _ => exact ⟨empty, rfl, now, h⟩

private theorem restarts_afterPoll {poll : Poll} (due : Instant)
    (h : poll.Carries fixed s (Reclaim.takenBack s t) b q handed) :
    (afterPoll due poll).Restarts fixed s t b q handed := by
  cases poll with
  | done result =>
    cases result with
    | ok count => exact h
    | error e => exact h.elim
  | _ => exact h

theorem Restarts.step {m : Memory} {line : List Ticket} {wakes : Nat} (h : d.Restarts fixed s t b q handed)
    (reclaims : s.reclaimOnStart = true) (sized : t.Sized s) (hb : b.Ordered)
    (sound : d.Sound s m line wakes handed) (does : (d.next s).Does d deed d') (met : deed.Met b q b' q')
    (calm : deed.isFailure = false) (once : wakes + [deed].countP Deed.isWake ≤ 1) :
    d'.Restarts fixed s t b' q' (handed ++ deed.sent?.toList) := by
  cases d with
  | starting =>
    cases does with
    | showRunning =>
      cases met with
      | acted noAsk fits => exact h
  | timing =>
    cases does with
    | readClock moment =>
      cases met with
      | acted noAsk fits => exact h
  | waiting first due =>
    cases does with
    | wake moment =>
      cases met with
      | acted noAsk fits =>
        cases first with
        | true =>
          refine ⟨h.1, ?_, default, h.2⟩
          unfold threshold
          rw [reclaims]
          rfl
        | false =>
          obtain ⟨rfl, -⟩ := sound
          have htwice : 1 + 1 ≤ 1 := once
          omega
    | rise hy =>
      cases met with
      | acted noAsk fits => cases fits
  | reclaiming due threshold pass =>
    obtain ⟨hempty, rfl, now, hcarries⟩ := h
    obtain ⟨-, rfl, -⟩ := sound
    obtain ⟨pass', hdoes, rfl⟩ := does_reclaiming does
    have haside := Reclaim.isAside_of_does hdoes
    have hcarried : ∃ now', pass'.Carries fixed s .zero now' t b' := by
      by_cases hdating : ∃ tasks, pass = .dating tasks
      · -- only now the pass reads the clock
        obtain ⟨tasks, rfl⟩ := hdating
        obtain ⟨read, -, rfl, hafter⟩ := hcarries.dated hdoes met
        exact ⟨read, hafter⟩
      · exact ⟨now, hcarries.step (fun tasks h => hdating ⟨tasks, h⟩) hb sized.attempts_le
          (fun hstatus => sized.room (.inl hstatus)) (Queue.contains_of_entries_eq_nil hempty t.id) hdoes met calm⟩
    obtain ⟨now', hcarried⟩ := hcarried
    obtain rfl := met.queue_of_isAside haside
    rw [Deed.sent?_of_isAside haside]
    exact restarts_afterReclaim due hempty hcarried
  | polling due poll =>
    obtain ⟨-, horder, -⟩ := sound
    obtain ⟨poll', hdoes, rfl⟩ := does_polling does
    have hsmall : (Reclaim.takenBack s t).attempts ≤ Row.mostAttempts := by
      rw [Reclaim.takenBack_attempts]
      exact sized.attempts_le
    have hcarries : poll.Carries fixed s (Reclaim.takenBack s t) b q handed := h
    exact restarts_afterPoll due
      (hcarries.step horder hb hsmall (Reclaim.room_takenBack sized) hdoes met calm)
  | stopping => exact h.elim
  | stopped => exact h.elim

theorem Restarts.retain (h : d.Restarts fixed s t b q handed)
    (keeps : ∀ u : Task, u.id = t.id → b.Retains fixed u → b'.Retains fixed u)
    (empty : q.entries = [] → q'.entries = []) (clear : ∀ id, q.contains id = false → q'.contains id = false) :
    d.Restarts fixed s t b' q' handed := by
  have hid := Reclaim.takenBack_id s t
  have hkeeps (u : Task) (hu : u.id = (Reclaim.takenBack s t).id) : b.Retains fixed u → b'.Retains fixed u :=
    keeps u (hu.trans hid)
  cases d with
  | starting => exact ⟨empty h.1, keeps t rfl h.2⟩
  | timing => exact ⟨empty h.1, keeps t rfl h.2⟩
  | waiting first due =>
    cases first with
    | true => exact ⟨empty h.1, keeps t rfl h.2⟩
    | false => exact Poll.Going.retain h hkeeps
  | reclaiming due threshold pass =>
    obtain ⟨hempty, hthreshold, now, hcarries⟩ := h
    exact ⟨empty hempty, hthreshold, now, hcarries.retain keeps⟩
  | polling due poll => exact Poll.Carries.retain h hkeeps empty clear
  | stopping => exact h
  | stopped => exact h

end Dispatcher

namespace Station

variable {others : Request → Prop} {x y : Station} {deeds : List Deed} {o : Option Deed}

private theorem restarts_step (h : x.dispatcher.Restarts fixed s t x.store x.queue (deeds.filterMap Deed.sent?))
    (reclaims : s.reclaimOnStart = true) (sized : t.Sized s) (sound : x.Sound s deeds)
    (may : ∀ r, others r → r.Spares fixed t.id) (move : x.Moves s others o y)
    (calm : ∀ deed ∈ o.toList, deed.isFailure = false) (once : (deeds ++ o.toList).countP Deed.isWake ≤ 1) :
    y.dispatcher.Restarts fixed s t y.store y.queue ((deeds ++ o.toList).filterMap Deed.sent?) := by
  obtain ⟨m, line, hstore, -, hstage⟩ := sound
  have hordered := hstore.backend_ordered
  cases o with
  | none =>
    have hsame := move.untouched may
    rw [show (none : Option Deed).toList = [] from rfl, List.append_nil, hsame.dispatcher]
    exact h.retain (hsame.retains hordered) hsame.empty hsame.untracked
  | some deed =>
    rw [show (some deed).toList = [deed] from rfl] at once ⊢
    rw [List.countP_append] at once
    cases move with
    | own does met =>
      rw [List.filterMap_append, Deed.filterMap_sent?]
      exact h.step reclaims sized hordered hstage does met (calm _ List.mem_cons_self) once

theorem Reaches.restarts (h : x.Reaches s others y deeds)
    (hx : x.dispatcher.Restarts fixed s t x.store x.queue []) (sound : x.Sound s [])
    (reclaims : s.reclaimOnStart = true) (sized : t.Sized s) (peaceful : ∀ r, others r → r.isPeaceful = true)
    (may : ∀ r, others r → r.Spares fixed t.id) (calm : ∀ deed ∈ deeds, deed.isFailure = false)
    (once : deeds.countP Deed.isWake ≤ 1) :
    y.dispatcher.Restarts fixed s t y.store y.queue (deeds.filterMap Deed.sent?) := by
  induction h with
  | start => exact hx
  | step hbefore move ih =>
    have hfewer := once
    rw [List.countP_append] at hfewer
    have hquiet := fun deed hdeed => calm deed (List.mem_append_left _ hdeed)
    exact restarts_step (ih hquiet (by omega)) reclaims sized (hbefore.sound sound peaceful hquiet (by omega)) may move
      (fun deed hdeed => calm deed (List.mem_append_right _ hdeed)) once

end Station

/-! ### After the first tick -/

private theorem filter_of_ascending {l : List Task} {c : Task} (h : Ascending l) (hc : c ∈ l) :
    l.filter (fun d => d.id = c.id) = [c] := by
  induction l with
  | nil => cases hc
  | cons a l ih =>
    obtain ⟨hless, hrest⟩ := List.pairwise_cons.1 h
    rcases List.mem_cons.1 hc with rfl | hc
    · rw [List.filter_cons_of_pos (by simp), List.filter_eq_nil_iff.2]
      intro d hd
      have hlt := hless d hd
      simp only [decide_eq_true_eq]
      omega
    · have hlt := hless c hc
      rw [List.filter_cons_of_neg (by simp only [decide_eq_true_eq]; omega)]
      exact ih hrest hc

private theorem takenBack_eq_resumed (few : t.attempts < s.maxAttempts) : Reclaim.takenBack s t = t.resumed := by
  unfold Reclaim.takenBack Task.resumed Retirement.retired Retirement.target
  rw [if_neg (Nat.not_le.2 few)]

private theorem status_resumed (active : t.status = .pending ∨ t.status = .processing) :
    t.resumed.status = .pending := by
  unfold Task.resumed
  split
  · rfl
  · rename_i hnot
    exact active.resolve_right hnot

/-- Reclaimed or polled, a task that has used up its attempts is retired once. -/
private theorem outcome_of_many (active : t.status = .pending ∨ t.status = .processing)
    (many : s.maxAttempts ≤ t.attempts) :
    Poll.outcome s (Reclaim.takenBack s t) = { t with status := .failed, version := t.version + 1 } := by
  have hretired : Retirement.retired s t = { t with status := .failed, version := t.version + 1 } := by
    unfold Retirement.retired Retirement.target
    rw [if_pos many]
  unfold Reclaim.takenBack Poll.outcome
  rcases active with hstatus | hstatus
  · have hnot : t.status ≠ .processing := by
      rw [hstatus]
      exact fun h => by cases h
    rw [if_neg hnot, if_pos ⟨hstatus, many⟩, hretired]
  · rw [if_pos hstatus, hretired]
    exact if_neg fun h => by cases h.1

/-- A poll that has nothing ahead has dealt with the task. -/
private theorem restarted_of_going (h : Poll.Going fixed s (Reclaim.takenBack s t) b handed [])
    (order : Ascending handed) : t.Restarted fixed s b handed := by
  have hkept : b.Retains fixed (Poll.outcome s (Reclaim.takenBack s t)) := by
    cases h.treated with
    | ahead mem same status kept => cases mem
    | behind past kept => exact kept
  have hhanded := h.handed
  rw [List.append_nil] at hhanded
  have hnone (past : ∀ c ∈ handed, c.id ≠ (Reclaim.takenBack s t).id) : handed.filter (fun d => d.id = t.id) = [] := by
    refine List.filter_eq_nil_iff.2 fun c hc => ?_
    have hne := past c hc
    rw [Reclaim.takenBack_id] at hne
    simpa using hne
  refine ⟨fun hactive few => ?_, fun hactive many => ?_, fun hsettled => ?_⟩
  · have hfew : (Reclaim.takenBack s t).attempts < s.maxAttempts := by
      rw [Reclaim.takenBack_attempts]
      exact few
    have houtcome : Poll.outcome s (Reclaim.takenBack s t) = Reclaim.takenBack s t :=
      if_neg fun h => Nat.not_le.2 hfew h.2
    have hid := Reclaim.takenBack_id s t
    rw [houtcome] at hkept
    rw [takenBack_eq_resumed few] at hkept hhanded hfew hid
    rw [if_pos ⟨status_resumed hactive, hfew⟩] at hhanded
    obtain ⟨c, hc, hsame⟩ := hhanded
    refine ⟨hkept, c, ?_, hsame⟩
    rw [← hid, ← hsame.id]
    exact filter_of_ascending order hc
  · rw [outcome_of_many hactive many] at hkept
    rw [if_neg fun h => Nat.not_le.2 h.2 (by rw [Reclaim.takenBack_attempts]; exact many)] at hhanded
    exact ⟨hkept, hnone hhanded⟩
  · have hidle : t.status ≠ .processing ∧ t.status ≠ .pending := by
      rcases hsettled with hstatus | hstatus <;> rw [hstatus] <;> exact ⟨fun h => (by cases h), fun h => (by cases h)⟩
    have hsame : Reclaim.takenBack s t = t := if_neg hidle.1
    have houtcome : Poll.outcome s t = t := if_neg fun h => hidle.2 h.1
    rw [if_neg fun h => hidle.2 (hsame ▸ h.1)] at hhanded
    rw [hsame, houtcome] at hkept
    exact ⟨hkept, hnone hhanded⟩

/-- **Main theorem.**  A dispatcher starts with `reclaimOnStart` and an empty queue over a store that has been left in
any state.  In its first tick no call fails and its token does not fire; others change no status and remove no task.
Wherever the tick stands, it can be brought to its end.  When it is over, what has been handed over is in ascending
order; every task that waited or was in processing and can still be tried has been handed over once, and waits; every
such task that has used up its attempts has failed; and the others are as they were. -/
theorem Station.Reaches.nothing_lost {others : Request → Prop} {m : Memory} {y : Station} {deeds : List Deed}
    (reclaims : s.reclaimOnStart = true) (represents : b.Represents m) (ordered : m.Ordered)
    (sized : ∀ t ∈ m.tasks, t.Sized s) (peaceful : ∀ r, others r → r.isPeaceful = true)
    (run : Station.Reaches s others ⟨b, .empty s.queueCapacity, .starting⟩ y deeds)
    (calm : ∀ deed ∈ deeds, deed.isFailure = false) (once : deeds.countP Deed.isWake ≤ 1) :
    (∃ z more due, y.Reaches s others z more ∧ (∀ deed ∈ more, deed.isFailure = false) ∧
      (deeds ++ more).countP Deed.isWake ≤ 1 ∧ z.dispatcher = .waiting false due) ∧
    ∀ due, y.dispatcher = .waiting false due → Ascending (deeds.filterMap Deed.sent?) ∧
      ∀ t ∈ m.tasks, t.Restarted (∀ text, ¬ others (.updateText t.id text)) s y.store (deeds.filterMap Deed.sent?) := by
  have hstore : b.Sound s m := ⟨represents, ordered, sized⟩
  have hlines : (Channel.empty s.queueCapacity).Lines [] :=
    ⟨Channel.fits_empty _, Nat.lt_of_lt_of_le Nat.one_pos (Nat.le_max_right _ _), List.not_mem_nil, rfl⟩
  have hstart : Station.Sound s ⟨b, .empty s.queueCapacity, .starting⟩ [] := ⟨m, [], hstore, hlines, rfl, rfl, rfl⟩
  have hsound := run.sound hstart peaceful calm once
  refine ⟨hsound.ends peaceful, fun due hdue => ?_⟩
  obtain ⟨_, _, -, -, hstage⟩ := hsound
  rw [hdue] at hstage
  obtain ⟨-, horder, -⟩ := hstage
  refine ⟨horder, fun t ht => restarted_of_going ?_ horder⟩
  have may (r : Request) (hr : others r) : r.Spares (∀ text, ¬ others (.updateText t.id text)) t.id := by
    have hpeaceful := peaceful r hr
    cases r with
    | updateText j text =>
      rintro hfixed rfl
      exact hfixed text hr
    | updateStatus j u => cases hpeaceful
    | delete j => cases hpeaceful
    | _ => trivial
  have hrestarts := run.restarts ⟨rfl, (hstore.keeps ht).retains⟩ hstart reclaims (sized t ht) peaceful may calm once
  rw [hdue] at hrestarts
  exact hrestarts

/-- A task on which somebody was at work when an earlier run ended. -/
def abandoned : Task := ⟨1, "", .processing, default, some default, none, "", 1, 1⟩

/-- A waiting task that has used up its attempts. -/
def exhausted : Task := ⟨2, "", .pending, default, some default, none, "", 6, 3⟩

/-- The first of two tasks is taken back and handed over, and the second fails. -/
theorem nothing_lost_of_abandoned : ∃ (y : Station) (deeds : List Deed),
    y.dispatcher = .waiting false ⟨10000000000⟩ ∧ deeds.filterMap Deed.sent? = [abandoned.resumed] ∧
    (∃ z more due, y.Reaches .standard (fun r => r.isPeaceful = true) z more ∧
      (∀ deed ∈ more, deed.isFailure = false) ∧ (deeds ++ more).countP Deed.isWake ≤ 1 ∧
      z.dispatcher = .waiting false due) ∧
    ∀ due, y.dispatcher = .waiting false due → Ascending (deeds.filterMap Deed.sent?) ∧
      ∀ t ∈ [abandoned, exhausted],
        t.Restarted (∀ text, ¬ (Request.updateText t.id text).isPeaceful = true) .standard y.store
          (deeds.filterMap Deed.sent?) := by
  have hstart : Station.Reaches .standard (fun r => r.isPeaceful = true)
    ⟨.memory ⟨2, [abandoned, exhausted]⟩, .empty Settings.standard.queueCapacity, .starting⟩
    ⟨.memory ⟨2, [abandoned, exhausted]⟩, .empty Settings.standard.queueCapacity, .starting⟩ [] := .start
  have htimes := hstart.step (.own .showRunning (.acted rfl trivial))
  have hwaits := htimes.step (.own (.readClock ⟨0⟩) (.acted rfl trivial))
  have hlists := hwaits.step (.own (.wake ⟨0⟩) (.acted rfl trivial))
  have hdates := hlists.step (.own (.ask (.ok [abandoned])) (.answered default rfl))
  have hguards := hdates.step (.own (.readWallClock default) (.acted rfl trivial))
  have hchecks := hguards.step (.own (.see false) (.acted rfl rfl))
  have hupdates := hchecks.step (.own (.look false) (.acted rfl rfl))
  have hcounts := hupdates.step (.own (.ask (.ok ())) (.answered default rfl))
  have htells := (hcounts.step (.own .record (.acted rfl trivial))).step
    (.own (.readWallClock default) (.acted rfl trivial))
  have hpolls := (htells.step (.own .notify (.acted rfl trivial))).step (.own .record (.acted rfl trivial))
  have hchooses := hpolls.step (.own (.ask (.ok [abandoned.resumed, exhausted])) (.answered default rfl))
  have htracks := (hchooses.step (.own (.look false) (.acted rfl rfl))).step
    (.own (.track default) (.acted rfl trivial))
  have hsends := (htracks.step (.own .join (.acted rfl ⟨rfl, List.not_mem_nil⟩))).step (.own .send (.acted rfl rfl))
  have hnext := (hsends.step (.own .record (.acted rfl trivial))).step (.own (.look false) (.acted rfl rfl))
  have hfails := hnext.step (.own (.ask (.ok ())) (.answered default rfl))
  have hdone := ((hfails.step (.own .record (.acted rfl trivial))).step
    (.own (.readWallClock default) (.acted rfl trivial))).step (.own .notify (.acted rfl trivial))
  have hmemory : (Backend.memory ⟨2, [abandoned, exhausted]⟩).Represents ⟨2, [abandoned, exhausted]⟩ := rfl
  have hordered : Memory.Ordered ⟨2, [abandoned, exhausted]⟩ := ⟨by decide, by decide⟩
  have hsized : ∀ t ∈ [abandoned, exhausted], t.Sized .standard := by
    intro t ht
    simp only [List.mem_cons, List.not_mem_nil, or_false] at ht
    rcases ht with rfl | rfl <;> exact ⟨by decide, fun _ => ⟨by decide, by decide, by decide⟩⟩
  have hlost := Station.Reaches.nothing_lost rfl hmemory hordered hsized (fun r hr => hr) hdone (by decide) (by decide)
  exact ⟨_, _, rfl, rfl, hlost⟩

end Dispatch

end Backlog

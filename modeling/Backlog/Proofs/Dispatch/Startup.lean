import Backlog.Proofs.Dispatch.Reclaiming
import Backlog.Proofs.Interleaving.Holding

/-!
# The first ticks of a dispatcher

With `reclaimOnStart` the first tick takes back every task in processing, however young.  The ticks after it go by the
age of a task, also where the first one has listed nothing because its listing failed.

Key facts: as long as no listing of the tasks in processing has succeeded, nothing happens to one of them
(`Station.Leading.step`); and the first pass that lists them leaves one in processing if and only if it is young and an
earlier listing has failed or `reclaimOnStart` is off (`Station.Reaches.still_processing_iff`).
-/

namespace Backlog.Dispatch

open Store

variable {s : Settings} {t : Task} {deed : Deed}

/-! ### What the dispatcher leaves alone -/

/-- What holds of all that may follow a step, if the answers of the store and the tasks from the channel have their
properties, holds of what a machine comes to. -/
theorem Step.Does.of_all {σ : Type} {answers : (r : Request) → Except StoreError r.Answer → Prop} {came : Task → Prop}
    {P : σ → Prop} {st : Step σ} {x y : σ} (does : st.Does x deed y) (h : st.All answers came P) (stays : P x)
    (hanswers : ∀ r result, deed = .ask r result → answers r result) (hcame : ∀ task, deed = .take task → came task) :
    P y := by
  cases does with
  | ask result => exact h.2 result (hanswers _ _ rfl)
  | drop ho => exact h.1 _ ho
  | look tracked => exact h tracked
  | track now => exact h
  | untrack tracked => exact h tracked
  | join => exact stays
  | send => exact h.2
  | leave ho => exact h.1 _ ho
  | queueUp => exact stays
  | take task => exact h.2 task (hcame _ rfl)
  | turnAway ho => exact h.1 _ ho
  | rest => exact h.2
  | rouse ho => exact h.1 _ ho
  | wake moment => exact h.2 moment
  | rise ho => exact h.1 _ ho
  | readClock moment => exact h moment
  | readWallClock now => exact h now
  | see cancelled => exact h cancelled
  | draw n => exact h n
  | record => exact h
  | notify => exact h
  | showRunning => exact h

namespace Dispatcher

/-- The tasks that the dispatcher has listed and not dealt with. -/
def held (d : Dispatcher) : List Task := Interleaving.held (.dispatcher d)

variable {d d' : Dispatcher}

/-- The dispatcher comes to hold no task with an identifier unless it is shown one. -/
theorem held_ne_of_does {id : Int} (does : (d.next s).Does d deed d') (h : ∀ c ∈ d.held, c.id ≠ id)
    (shown : ∀ r a, deed = .ask r (.ok a) → ∀ c ∈ r.tasks a, c.id ≠ id) : ∀ c ∈ d'.held, c.id ≠ id := by
  have hnext : ((Simulation.Job.dispatcher d).next s).All (Interleaving.ShowsOnly fun c => c.id ≠ id)
      (fun _ => True) fun job => ∀ c ∈ Interleaving.held job, c.id ≠ id := Interleaving.held_next s h
  refine (does.map Simulation.Job.dispatcher).of_all hnext h (fun r result hr a ha => ?_) fun _ _ => trivial
  subst ha
  exact shown r a hr

/-- The dispatcher lists the tasks in processing, at the beginning of a pass, or those that wait, or it retires a task
that it holds. -/
theorem request_of_does {r : Request} {result : Except StoreError r.Answer}
    (does : (d.next s).Does d (.ask r result) d') :
    (r = .listByStatus .processing ∧ ∃ due threshold, d = reclaiming due threshold .listing) ∨
      r = .listByStatus .pending ∨ ∃ task ∈ d.held, r = .updateStatus task.id (Retirement.update s task) := by
  cases d with
  | starting => cases does
  | timing => cases does
  | waiting first due => cases does
  | stopping => cases does
  | stopped => cases does
  | reclaiming due threshold pass =>
    obtain ⟨pass', hdoes, -⟩ := does_reclaiming does
    cases pass with
    | listing =>
      cases hdoes
      exact .inl ⟨rfl, due, threshold, rfl⟩
    | retiring now task rest count stage =>
      obtain ⟨stage', hdoes, -⟩ := Reclaim.does_retiring hdoes
      cases stage <;> cases hdoes
      exact .inr (.inr ⟨task, List.mem_cons_self, rfl⟩)
    | _ => cases hdoes
  | polling due poll =>
    obtain ⟨poll', hdoes, -⟩ := does_polling does
    cases poll with
    | listing =>
      cases hdoes
      exact .inr (.inl rfl)
    | retiring task rest count stage =>
      obtain ⟨stage', hdoes, -⟩ := Poll.does_retiring hdoes
      cases stage <;> cases hdoes
      exact .inr (.inr ⟨task, List.mem_cons_self, rfl⟩)
    | enqueueing task rest count stage =>
      obtain ⟨stage', hdoes, -⟩ := Poll.does_enqueueing hdoes
      cases stage <;> cases hdoes
    | _ => cases hdoes

/-- A request of the dispatcher spares the tasks that it does not hold. -/
theorem spares_of_does {fixed : Prop} {id : Int} {r : Request} {result : Except StoreError r.Answer}
    (does : (d.next s).Does d (.ask r result) d') (h : ∀ c ∈ d.held, c.id ≠ id) : r.Spares fixed id := by
  rcases request_of_does does with ⟨rfl, -⟩ | rfl | ⟨task, htask, rfl⟩
  · trivial
  · trivial
  · exact h task htask

/-- The dispatcher tracks a task only while it holds it. -/
theorem mem_held_of_track {now : Timestamp} {task : Task} (does : (d.next s).Does d (.track now task) d') :
    task ∈ d.held := by
  cases d with
  | starting => cases does
  | timing => cases does
  | waiting first due => cases does
  | stopping => cases does
  | stopped => cases does
  | reclaiming due threshold pass =>
    obtain ⟨pass', hdoes, -⟩ := does_reclaiming does
    cases pass with
    | retiring now task rest count stage =>
      obtain ⟨stage', hdoes, -⟩ := Reclaim.does_retiring hdoes
      cases stage <;> cases hdoes
    | _ => cases hdoes
  | polling due poll =>
    obtain ⟨poll', hdoes, -⟩ := does_polling does
    cases poll with
    | retiring task rest count stage =>
      obtain ⟨stage', hdoes, -⟩ := Poll.does_retiring hdoes
      cases stage <;> cases hdoes
    | enqueueing task rest count stage =>
      obtain ⟨stage', hdoes, -⟩ := Poll.does_enqueueing hdoes
      cases stage <;> cases hdoes
      exact List.mem_cons_self
    | _ => cases hdoes

end Dispatcher

/-! ### The ticks that fail -/

/-- Where a dispatcher may stand that has failed so many times to list the tasks in processing, and never done it. -/
def Dispatcher.Leads (s : Settings) (failures : Nat) : Dispatcher → Prop
  | starting => failures = 0
  | timing => failures = 0
  | waiting first _ => first = decide (failures = 0)
  | reclaiming _ threshold pass => threshold = Dispatcher.threshold s (decide (failures = 0)) ∧ pass = .listing
  | polling _ _ => 0 < failures
  | stopping => False
  | stopped => False

theorem Dispatcher.Leads.step {d d' : Dispatcher} {failures : Nat} {b b' : Backend} {q q' : Queue}
    (h : d.Leads s failures) (does : (d.next s).Does d deed d') (met : deed.Met b q b' q')
    (unlisted : deed.isListing = false) : d'.Leads s (failures + [deed].countP Deed.isFailedListing) := by
  cases d with
  | starting =>
    cases does
    exact h
  | timing =>
    cases does
    obtain rfl : failures = 0 := h
    rfl
  | waiting first due =>
    cases does with
    | wake moment =>
      obtain rfl : first = decide (failures = 0) := h
      exact ⟨rfl, rfl⟩
    | rise hy =>
      cases met with
      | acted noAsk fits => cases fits
  | reclaiming due threshold pass =>
    obtain ⟨-, rfl⟩ := h
    obtain ⟨pass', hdoes, rfl⟩ := does_reclaiming does
    cases hdoes with
    | ask result =>
      cases result with
      | ok ts => cases unlisted
      | error e => exact Nat.succ_pos _
    | drop hy =>
      cases met with
      | acted noAsk fits => cases fits
  | polling due poll =>
    obtain ⟨poll', -, rfl⟩ := does_polling does
    have hpos : 0 < failures + [deed].countP Deed.isFailedListing := Nat.add_pos_left h _
    cases poll' with
    | done result => exact (decide_eq_false (Nat.pos_iff_ne_zero.1 hpos)).symm
    | _ => exact hpos
  | stopping => exact h.elim
  | stopped => exact h.elim

namespace Station

/-- So far the dispatcher has failed so many times to list the tasks in processing and has never done it, and nothing
has happened to a task, but for its text. -/
structure Leading (s : Settings) (t : Task) (failures : Nat) (x : Station) : Prop where
  ordered : x.store.Ordered
  kept : x.store.Retains False t
  untracked : x.queue.contains t.id = false
  unheld : ∀ c ∈ x.dispatcher.held, c.id ≠ t.id
  stage : x.dispatcher.Leads s failures

variable {x y z : Station} {failures : Nat} {deeds : List Deed} {o : Option Deed}

/-- What the dispatcher does before it has listed the tasks in processing does not touch one of them. -/
private theorem Leading.own (h : x.Leading s t failures) (status : t.status = .processing) {d : Dispatcher}
    {b : Backend} {q : Queue} (does : (x.dispatcher.next s).Does x.dispatcher deed d)
    (met : deed.Met x.store x.queue b q) (unlisted : deed.isListing = false) :
    Leading s t (failures + [deed].countP Deed.isFailedListing) ⟨b, q, d⟩ where
  ordered := met.ordered h.ordered
  kept := by
    refine met.retains h.ordered h.kept ?_
    rintro r result rfl
    exact Dispatcher.spares_of_does does h.unheld
  untracked := by
    cases met with
    | answered wall answer => exact h.untracked
    | failed e => exact h.untracked
    | acted noAsk fits =>
      refine Deed.contains_onQueue h.untracked 0 ?_
      rintro now task rfl
      exact h.unheld task (Dispatcher.mem_held_of_track does)
  unheld := by
    refine Dispatcher.held_ne_of_does does h.unheld ?_
    rintro r a rfl c hc hid
    rcases Dispatcher.request_of_does does with ⟨rfl, -⟩ | rfl | ⟨task, -, rfl⟩
    · cases unlisted
    · -- the store shows the task as one in processing
      obtain ⟨-, -, wall, ts, ha, answer⟩ := met.listed rfl
      cases ha
      obtain ⟨_, ⟨text, -, rfl⟩, hkept⟩ := h.kept
      have hpending : t.status = .pending := (((h.ordered.listed answer).2 _ hkept).2 c hc hid).2
      rw [status] at hpending
      cases hpending
    · cases hc
  stage := h.stage.step does met unlisted

private theorem Leading.of_untouched (h : x.Leading s t failures) (same : x.Untouched False t.id y) :
    y.Leading s t failures := by
  refine ⟨same.ordered h.ordered, same.retains h.ordered t rfl h.kept, same.untracked _ h.untracked, ?_, ?_⟩
  · rw [same.dispatcher]
    exact h.unheld
  · rw [same.dispatcher]
    exact h.stage

theorem Leading.step (h : x.Leading s t failures) (status : t.status = .processing)
    (m : x.Moves s (Request.Spares False t.id) o y) (unlisted : ∀ deed ∈ o.toList, deed.isListing = false) :
    y.Leading s t (failures + o.toList.countP Deed.isFailedListing) := by
  cases o with
  | none => exact h.of_untouched (m.untouched fun _ may => may)
  | some deed =>
    cases m with
    | own does met => exact h.own status does met (unlisted _ List.mem_cons_self)

theorem Reaches.leading (h : x.Reaches s (Request.Spares False t.id) y deeds) (hx : x.Leading s t 0)
    (status : t.status = .processing) (unlisted : ∀ deed ∈ deeds, deed.isListing = false) :
    y.Leading s t (deeds.countP Deed.isFailedListing) := by
  induction h with
  | start => exact hx
  | step _ m ih =>
    have hbefore := ih fun deed hdeed => unlisted deed (List.mem_append_left _ hdeed)
    rw [List.countP_append]
    exact hbefore.step status m fun deed hdeed => unlisted deed (List.mem_append_right _ hdeed)

end Station

/-! ### The pass that lists the tasks -/

namespace Reclaim

/-- Whether a pass has listed the tasks and read the clock. -/
def isDated : Reclaim → Bool
  | listing => false
  | dating _ => false
  | _ => true

theorem ne_dating_of_isDated {pass : Reclaim} (h : pass.isDated = true) (tasks : List Task) :
    pass ≠ dating tasks := by
  rintro rfl
  cases h

private theorem isDated_onward (now : Timestamp) (count : Nat) (rest : List Task) :
    (onward now count rest).isDated = true := by
  cases rest <;> rfl

theorem isDated_of_does {threshold : Duration} {pass pass' : Reclaim} (h : pass.isDated = true)
    (does : (pass.next s threshold).Does pass deed pass') : pass'.isDated = true := by
  cases pass with
  | listing => cases h
  | dating tasks => cases h
  | guarding now task rest count =>
    cases does with
    | see cancelled => cases cancelled <;> rfl
  | checking now task rest count =>
    cases does with
    | look tracked =>
      dsimp only
      split
      · rfl
      · exact isDated_onward now count rest
  | retiring now task rest count stage =>
    obtain ⟨stage', -, rfl⟩ := does_retiring does
    cases stage' with
    | done moved => exact isDated_onward now _ rest
    | _ => rfl
  | done result => cases does

end Reclaim

private theorem Poll.onward_ne_starting (count : Nat) (rest : List Task) : onward count rest ≠ starting := by
  cases rest <;> exact fun h => by cases h

/-- A poll does not begin anew. -/
theorem Poll.ne_starting_of_does {poll poll' : Poll} (does : (poll.next s).Does poll deed poll') :
    poll' ≠ starting := by
  cases poll with
  | starting =>
    cases does
    exact fun h => by cases h
  | listing =>
    cases does with
    | ask result =>
      cases result with
      | ok tasks => exact onward_ne_starting 0 tasks
      | error e => exact fun h => by cases h
    | drop hy =>
      cases hy
      exact fun h => by cases h
  | failing e =>
    cases does
    exact fun h => by cases h
  | checking task rest count =>
    cases does with
    | look tracked =>
      unfold afterCheck
      split
      · exact onward_ne_starting count rest
      · split <;> exact fun h => by cases h
  | retiring task rest count stage =>
    obtain ⟨stage', -, rfl⟩ := does_retiring does
    cases stage' with
    | done moved => exact onward_ne_starting count rest
    | _ => exact fun h => by cases h
  | enqueueing task rest count stage =>
    obtain ⟨stage', -, rfl⟩ := does_enqueueing does
    cases stage' with
    | done sent => cases sent <;> exact fun h => by cases h
    | _ => exact fun h => by cases h
  | counting rest count =>
    cases does
    exact onward_ne_starting count rest
  | done result => cases does

namespace Station

variable {x y z : Station} {failures : Nat} {deeds : List Deed} {o : Option Deed}

/-- The pass that lists the tasks has read the wall clock, and the task is on its way through it or past it. -/
structure Passing (s : Settings) (threshold : Duration) (now : Timestamp) (t : Task) (x : Station) : Prop where
  ordered : x.store.Ordered
  stage : match x.dispatcher with
    | .reclaiming _ threshold' pass => threshold' = threshold ∧ pass.isDated = true ∧
      x.queue.contains t.id = false ∧ pass.Carries False s threshold now t x.store
    | .polling _ .starting => x.store.Retains False (Reclaim.outcome s threshold now t)
    | .polling _ _ => True
    | .waiting _ _ => True
    | _ => False

variable {threshold : Duration} {now : Timestamp}

theorem Passing.of_carries {pass : Reclaim} {b : Backend} {q : Queue} (hb : b.Ordered)
    (untracked : q.contains t.id = false) (dated : pass.isDated = true)
    (carries : pass.Carries False s threshold now t b) (due : Instant) :
    Passing s threshold now t ⟨b, q, Dispatcher.afterReclaim due threshold pass⟩ := by
  refine ⟨hb, ?_⟩
  cases pass with
  | done result =>
    cases result with
    | ok count => exact carries
    | error e => exact carries.elim
  | _ => exact ⟨rfl, dated, untracked, carries⟩

private theorem Passing.own (h : x.Passing s threshold now t) (range : t.InRange) {d : Dispatcher} {b : Backend}
    {q : Queue} (does : (x.dispatcher.next s).Does x.dispatcher deed d) (met : deed.Met x.store x.queue b q)
    (calm : deed.isFailure = false) (noWake : deed.isWake = false) : Passing s threshold now t ⟨b, q, d⟩ := by
  obtain ⟨hordered, hstage⟩ := h
  have hb := met.ordered hordered
  generalize x.dispatcher = before at does hstage
  cases before with
  | reclaiming due threshold' pass =>
    obtain ⟨rfl, hdated, huntracked, hcarries⟩ := hstage
    obtain ⟨pass', hdoes, rfl⟩ := Dispatcher.does_reclaiming does
    have hcarried := hcarries.step (Reclaim.ne_dating_of_isDated hdated) hordered range.attempts_le
      (fun _ => range.toHasRoom) huntracked hdoes met calm
    obtain rfl := met.queue_of_isAside (Reclaim.isAside_of_does hdoes)
    exact .of_carries hb huntracked (Reclaim.isDated_of_does hdated hdoes) hcarried due
  | polling due poll =>
    obtain ⟨poll', hdoes, rfl⟩ := Dispatcher.does_polling does
    have hstarted := Poll.ne_starting_of_does hdoes
    refine ⟨hb, ?_⟩
    cases poll' with
    | starting => exact absurd rfl hstarted
    | _ => trivial
  | waiting first due =>
    cases does with
    | wake moment => cases noWake
    | rise hy =>
      cases met with
      | acted noAsk fits => cases fits
  | starting => exact hstage.elim
  | timing => exact hstage.elim
  | stopping => exact hstage.elim
  | stopped => exact hstage.elim

private theorem Passing.step (h : x.Passing s threshold now t) (range : t.InRange)
    (m : x.Moves s (Request.Spares False t.id) o y)
    (calm : ∀ deed ∈ o.toList, deed.isFailure = false ∧ deed.isWake = false) : y.Passing s threshold now t := by
  cases o with
  | none =>
    have hsame := m.untouched fun _ may => may
    obtain ⟨hordered, hstage⟩ := h
    have hkeeps := hsame.retains hordered
    refine ⟨hsame.ordered hordered, ?_⟩
    rw [hsame.dispatcher]
    generalize x.dispatcher = d at hstage
    cases d with
    | reclaiming due threshold' pass =>
      exact ⟨hstage.1, hstage.2.1, hsame.untracked _ hstage.2.2.1, hstage.2.2.2.retain hkeeps⟩
    | polling due poll =>
      cases poll with
      | starting => exact hkeeps _ (Reclaim.outcome_id s threshold now t) hstage
      | _ => trivial
    | _ => exact hstage
  | some deed =>
    obtain ⟨hcalm, hwake⟩ := calm _ List.mem_cons_self
    cases m with
    | own does met => exact h.own range does met hcalm hwake

theorem Reaches.passing (h : x.Reaches s (Request.Spares False t.id) y deeds) (hx : x.Passing s threshold now t)
    (range : t.InRange) (calm : ∀ deed ∈ deeds, deed.isFailure = false ∧ deed.isWake = false) :
    y.Passing s threshold now t := by
  induction h with
  | start => exact hx
  | step _ m ih =>
    have hbefore := ih fun deed hdeed => calm deed (List.mem_append_left _ hdeed)
    exact hbefore.step range m fun deed hdeed => calm deed (List.mem_append_right _ hdeed)

/-- A listing by a dispatcher that has never listed the tasks in processing is that of a pass whose threshold is empty
only if no tick has failed before. -/
private theorem Leading.lists {ts : List Task} (h : x.Leading s t failures) (range : t.InRange)
    (m : x.Moves s (Request.Spares False t.id) (some (.ask (.listByStatus .processing) (.ok ts))) y) (now : Timestamp) :
    ∃ due, y.dispatcher = .reclaiming due (Dispatcher.threshold s (decide (failures = 0))) (.dating ts) ∧
      y.store.Ordered ∧ y.queue.contains t.id = false ∧
      (Reclaim.dating ts).Carries False s (Dispatcher.threshold s (decide (failures = 0))) now t y.store := by
  obtain ⟨hordered, hkept, huntracked, -, hstage⟩ := h
  cases m with
  | own does met =>
    obtain ⟨-, due, threshold, hd⟩ | hother | ⟨task, -, hother⟩ := Dispatcher.request_of_does does
    · rw [hd] at does hstage
      obtain ⟨rfl, -⟩ := hstage
      obtain ⟨pass, hdoes, rfl⟩ := Dispatcher.does_reclaiming does
      have hcarries : Reclaim.listing.Carries False s (Dispatcher.threshold s (decide (failures = 0))) now t x.store :=
        hkept
      have hcarried := hcarries.step (fun tasks h => by cases h) hordered range.attempts_le (fun _ => range.toHasRoom)
        huntracked hdoes met rfl
      obtain ⟨rfl, rfl, -⟩ := met.listed rfl
      cases hdoes
      exact ⟨due, rfl, hordered, huntracked, hcarried⟩
    · cases hother
    · cases hother

theorem Leading.passing {ts : List Task} (h : x.Leading s t failures) (range : t.InRange)
    (run : x.Reaches s (Request.Spares False t.id) y [.ask (.listByStatus .processing) (.ok ts), .readWallClock now]) :
    y.Passing s (Dispatcher.threshold s (decide (failures = 0))) now t := by
  obtain ⟨x₁, x₂, hidle, hlist, hrest⟩ := run.of_cons
  obtain ⟨x₃, x₄, hidle', hdate, hafter⟩ := hrest.of_cons
  have hleading := h.of_untouched (hidle.untouched fun _ may => may)
  obtain ⟨due, hd, hordered, huntracked, hcarries⟩ := hleading.lists range hlist now
  have hsame := hidle'.untouched fun _ may => may
  have hdating := hcarries.retain (hsame.retains hordered)
  refine hafter.passing ?_ range fun deed hdeed => by cases hdeed
  cases hdate with
  | own does met =>
    rw [hsame.dispatcher, hd] at does
    obtain ⟨pass, hdoes, rfl⟩ := Dispatcher.does_reclaiming does
    obtain ⟨read, hread, rfl, hcarried⟩ := hdating.dated hdoes met
    cases hread
    cases hdoes
    cases met with
    | acted noAsk fits =>
      exact .of_carries (hsame.ordered hordered) (hsame.untracked _ huntracked) (Reclaim.isDated_onward now 0 ts)
        hcarried due

/-- A tick takes a task back if it is a first one that reclaims, or if the task is old. -/
theorem isStale_threshold_iff (s : Settings) (first : Bool) (now : Timestamp) (t : Task) :
    Reclaim.isStale (Dispatcher.threshold s first) now t = false ↔
      (first = false ∨ s.reclaimOnStart = false) ∧ Reclaim.isStale s.staleAfter now t = false := by
  unfold Dispatcher.threshold
  cases first <;> cases s.reclaimOnStart <;> simp [Reclaim.isStale_zero]

/-- **Main theorem.**  A dispatcher starts over a task in processing that the queue does not track and nobody else moves
or removes, and after any number of ticks that fail to list the tasks in processing it lists them.  When that pass is
over, none of its calls having failed, the task can be read, and it is still in processing if and only if it was young
when the pass read the clock and the pass was not a first one that reclaims: a listing had failed before, or
`reclaimOnStart` is off. -/
theorem Reaches.still_processing_iff {before after : List Deed} {ts : List Task} {due : Instant}
    (starts : x.dispatcher = .starting) (ordered : x.store.Ordered) (keeps : x.store.Keeps t) (range : t.InRange)
    (status : t.status = .processing) (untracked : x.queue.contains t.id = false)
    (run : x.Reaches s (Request.Spares False t.id) z
      (before ++ .ask (.listByStatus .processing) (.ok ts) :: .readWallClock now :: after))
    (unlisted : ∀ deed ∈ before, deed.isListing = false)
    (calm : ∀ deed ∈ after, deed.isFailure = false ∧ deed.isWake = false)
    (ended : z.dispatcher = .polling due .starting) :
    ∃ u : Task, (∀ wall, z.store.perform wall (.get t.id) = (.ok (some u), z.store)) ∧
      (u.status = .processing ↔ (before.countP Deed.isFailedListing ≠ 0 ∨ s.reclaimOnStart = false) ∧
        Reclaim.isStale s.staleAfter now t = false) := by
  obtain ⟨y, hbefore, hpass⟩ := run.of_append
  have hparts : y.Reaches s (Request.Spares False t.id) z
    ([.ask (.listByStatus .processing) (.ok ts), .readWallClock now] ++ after) := hpass
  obtain ⟨w, hlists, hafter⟩ := hparts.of_append
  have hleading : x.Leading s t 0 := by
    refine ⟨ordered, keeps.retains, untracked, ?_, ?_⟩
    · rw [starts]
      exact fun c hc => by cases hc
    · rw [starts]
      rfl
  have hend := hafter.passing ((hbefore.leading hleading status unlisted).passing range hlists) range calm
  obtain ⟨-, hstage⟩ := hend
  rw [ended] at hstage
  have hattempts (threshold : Duration) : (Reclaim.outcome s threshold now t).attempts ≤ Row.mostAttempts := by
    rw [Reclaim.outcome_attempts]
    exact range.attempts_le
  obtain ⟨u, ⟨text, -, rfl⟩, hget⟩ := Backend.Retains.get hstage (hattempts _)
  rw [Reclaim.outcome_id] at hget
  refine ⟨_, hget, (Reclaim.outcome_status_iff s _ now t).trans ?_⟩
  rw [isStale_threshold_iff, decide_eq_false_iff_not]
  exact ⟨fun h => h.2, fun h => ⟨status, h⟩⟩

/-! ### A start that fails once -/

/-- A task on which work has just begun. -/
def justBegun : Task := ⟨1, "", .processing, default, some default, none, "", 1, 1⟩

/-- The first tick of a dispatcher, whose listing of the tasks in processing fails, up to the listing of the second. -/
def failedTick : List Deed :=
  [.showRunning true, .readClock ⟨0⟩, .wake ⟨0⟩, .ask (.listByStatus .processing) (.error (.unavailable "down")),
    .record .poll, .ask (.listByStatus .pending) (.ok []), .wake ⟨10000000000⟩]

private theorem reaches_failedTick :
    Reaches .standard (Request.Spares False justBegun.id) ⟨.memory ⟨1, [justBegun]⟩, .empty 100, .starting⟩
      ⟨.memory ⟨1, [justBegun]⟩, .empty 100, .polling ⟨20000000000⟩ .starting⟩
      (failedTick ++ .ask (.listByStatus .processing) (.ok [justBegun]) :: .readWallClock default ::
        [.see false, .look 1 false]) := by
  have goes {d d' : Dispatcher} {deeds : List Deed} (deed : Deed)
      (h : Reaches .standard (Request.Spares False justBegun.id) ⟨.memory ⟨1, [justBegun]⟩, .empty 100, .starting⟩
        ⟨.memory ⟨1, [justBegun]⟩, .empty 100, d⟩ deeds)
      (does : (d.next .standard).Does d deed d')
      (met : deed.Met (.memory ⟨1, [justBegun]⟩) (.empty 100) (.memory ⟨1, [justBegun]⟩) (.empty 100)) :
      Reaches .standard (Request.Spares False justBegun.id) ⟨.memory ⟨1, [justBegun]⟩, .empty 100, .starting⟩
        ⟨.memory ⟨1, [justBegun]⟩, .empty 100, d'⟩ (deeds ++ [deed]) := h.step (.own does met)
  have htimes := goes (.showRunning true) .start .showRunning (.acted rfl trivial)
  have hwaits := goes (.readClock ⟨0⟩) htimes (.readClock _) (.acted rfl trivial)
  have hreclaims := goes (.wake ⟨0⟩) hwaits (.wake _) (.acted rfl trivial)
  have hfails := goes (.ask (.listByStatus .processing) (.error (.unavailable "down"))) hreclaims (.ask _) (.failed _)
  have hpolls := goes (.record .poll) hfails .record (.acted rfl trivial)
  have hlists := goes (.ask (.listByStatus .pending) (.ok [])) hpolls (.ask _) (.answered default rfl)
  have hretries := goes (.wake ⟨10000000000⟩) hlists (.wake _) (.acted rfl trivial)
  have hdates := goes (.ask (.listByStatus .processing) (.ok [justBegun])) hretries (.ask _) (.answered default rfl)
  have hguards := goes (.readWallClock default) hdates (.readWallClock _) (.acted rfl trivial)
  have hchecks := goes (.see false) hguards (.see _) (.acted rfl rfl)
  exact goes (.look 1 false) hchecks (.look _) (.acted rfl rfl)

private theorem justBegun_inRange : justBegun.InRange where
  least_le := by decide
  lt_most := by decide
  attempts_lt := by decide
  attempts_le := by decide

private theorem ordered_justBegun : (Backend.memory ⟨1, [justBegun]⟩).Ordered where
  ascending := List.pairwise_singleton _ _
  le_lastId := fun t ht => by
    obtain rfl := List.mem_singleton.1 ht
    exact Int.le_refl _

private theorem keeps_justBegun : (Backend.memory ⟨1, [justBegun]⟩).Keeps justBegun := rfl

/-- The second tick leaves the task in processing, because the first one has failed and the task is young. -/
theorem still_processing_of_failedTick : ∃ u : Task,
    (∀ wall, (Backend.memory ⟨1, [justBegun]⟩).perform wall (.get justBegun.id) =
      (.ok (some u), .memory ⟨1, [justBegun]⟩)) ∧
      (u.status = .processing ↔
        (failedTick.countP Deed.isFailedListing ≠ 0 ∨ Settings.standard.reclaimOnStart = false) ∧
          Reclaim.isStale Settings.standard.staleAfter default justBegun = false) :=
  reaches_failedTick.still_processing_iff rfl ordered_justBegun keeps_justBegun justBegun_inRange rfl rfl (by decide)
    (by decide) rfl

/-- With `reclaimOnStart` the first pass that lists the tasks in processing leaves one of them in processing. -/
theorem not_reclaimed_of_failedTick :
    ¬ ∀ (s : Settings) (x z : Station) (t : Task) (before after : List Deed) (ts : List Task) (now : Timestamp)
      (due : Instant), s.reclaimOnStart = true → x.dispatcher = .starting → x.store.Ordered → x.store.Keeps t →
      t.InRange → t.status = .processing → x.queue.contains t.id = false →
      x.Reaches s (Request.Spares False t.id) z
        (before ++ .ask (.listByStatus .processing) (.ok ts) :: .readWallClock now :: after) →
      (∀ deed ∈ before, deed.isListing = false) →
      (∀ deed ∈ after, deed.isFailure = false ∧ deed.isWake = false) →
      z.dispatcher = .polling due .starting →
      ∀ u, (z.store.perform now (.get t.id)).1 = .ok (some u) → u.status ≠ .processing := by
  intro h
  have hstatus := h .standard _ _ justBegun failedTick [.see false, .look 1 false] [justBegun] default ⟨20000000000⟩ rfl
    rfl ordered_justBegun keeps_justBegun justBegun_inRange rfl rfl reaches_failedTick (by decide) (by decide) rfl
    justBegun rfl
  exact hstatus rfl

end Station

end Backlog.Dispatch

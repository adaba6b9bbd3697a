import Backlog.Proofs.Interleaving.Holding
import Backlog.Proofs.Interleaving.Landing
import Backlog.Proofs.Interleaving.Receiving

/-!
# Workers whose token has fired

An idle worker waits for a task and for the token at once, and takes whichever is there.  So a worker whose token has
fired, and who has just given up a task, may find another one in the channel and take it.

Key facts: a worker that runs can always give up what it does and wait for a task again (`Follows.exists_idle`), and a
channel is emptied from the front (`Follows.pool`).  So the tasks that the workers of a runtime may still take after its
token has fired are those that the channel holds, as many of them as they like, as long as one of the workers runs; and
what they do not take stays as it is if nobody else changes it (`System.Reaches.taken_after_firing`).
-/

namespace Backlog

open Dispatch Simulation Store

/-- How far a transition is from its end, if it fails and is given up. -/
def Dispatch.Transition.distance : Transition → Nat
  | updating _ _ => 2
  | pausing _ _ _ => 1
  | confirming _ => 1
  | done _ => 0

/-- How far a worker is from waiting for a task, if it gives up what it does. -/
def Dispatch.Worker.distance : Worker → Nat
  | accepted _ => 8
  | claiming _ _ transition => 5 + transition.distance
  | announcing _ _ => 4
  | drawing _ _ => 3
  | working _ _ _ => 2
  | finishing _ _ => 7
  | completing _ _ _ transition => 4 + transition.distance
  | counting _ _ => 3
  | closing _ _ => 2
  | releasing _ => 1
  | _ => 0

namespace Interleaving

/-- Whether a job is a worker that has not stopped. -/
def isRunning : Job → Bool
  | .worker w => !w.isStopped
  | _ => false

namespace System

/-- The tasks that were taken out of the channel. -/
def takenIn (deeds : List (Nat × Deed)) : List Task := deeds.filterMap fun e => e.2.taken?

/-- A worker sits in a seat of a runtime. -/
def HasWorker (x : System) (p i : Nat) : Prop := ∃ w, (x.seats p i).job = .worker w

/-- Nobody acts but the workers of a runtime. -/
def byWorkers (x : System) (p : Nat) : Choice → Prop
  | .act q i _ => q = p ∧ x.HasWorker p i
  | _ => False

variable {x x₀ y : System} {p i : Nat} {es : List Event} {deeds : List (Nat × Deed)} {allowed : Choice → Prop}
  {s : Settings} {deed : Deed}

/-! ### Workers stay where they are -/

/-- A worker stays a worker, and one that has stopped does nothing any more. -/
theorem Follows.worker (h : Follows allowed p x₀ x es deeds) {w : Worker} (hw : (x₀.seats p i).job = .worker w) :
    ∃ w', (x.seats p i).job = .worker w' ∧ (w'.isStopped = false → w.isStopped = false) := by
  induction h with
  | start => exact ⟨w, hw, id⟩
  | @acted x y es es' deeds j how deed s' h ok step does did ih =>
    obtain ⟨w', hw', hrunning⟩ := ih
    by_cases hj : j = i
    · subst hj
      rw [hw'] at does
      obtain ⟨w'', hdoes, hw''⟩ := Step.Does.of_map does
      refine ⟨w'', by rw [seats_setSeat, if_pos ⟨rfl, rfl⟩, hw''], fun _ => hrunning ?_⟩
      cases w' with
      | stopped => cases hdoes
      | _ => rfl
    · have hseat := (occurs_of_step step).seat (p := p) (i := i) (by simp [hw'])
        fun how hc => by cases hc; exact hj rfl
      exact ⟨w', by rw [hseat, hw'], hrunning⟩
  | @other x y es es' deeds c h ok apart step ih =>
    obtain ⟨w', hw', hrunning⟩ := ih
    have hseat := (occurs_of_step step).seat (p := p) (i := i) (by simp [hw']) (apart i)
    exact ⟨w', by rw [hseat, hw'], hrunning⟩

/-- What a worker takes, it takes from the front of the channel, and it puts nothing in. -/
private theorem items_of_does {w w' : Worker} (h : (w.next s).Does w deed w') {t : Ticket} {cancelled : Bool}
    {q : Queue} (fits : deed.Fits t cancelled q) :
    deed.taken?.toList ++ (deed.onQueue t q).channel.items = q.channel.items := by
  have hholds := Worker.holds_of_does h
  generalize w.held? = held, w'.held? = held' at hholds
  cases hholds with
  | take task =>
    obtain ⟨c, hc, hafter⟩ := fits.exists_takeFor
    rw [hafter]
    exact (Channel.takeFor_spec hc).1.symm
  | aside haside =>
    rw [Deed.onQueue_of_isAside haside]
    cases deed <;> first
      | rfl
      | cases haside
  | _ => rfl

/-- What the workers of a runtime have taken while nobody else has acted. -/
structure Pool (x₀ : System) (p : Nat) (x : System) (deeds : List (Nat × Deed)) : Prop where
  items : takenIn deeds ++ (x.runtimes p).queue.channel.items = (x₀.runtimes p).queue.channel.items
  running : takenIn deeds ≠ [] → ∃ i, isRunning (x₀.seats p i).job = true
  others : ∀ i, ¬ x₀.HasWorker p i → x.seats p i = x₀.seats p i

theorem takenIn_concat (deeds : List (Nat × Deed)) (e : Nat × Deed) :
    takenIn (deeds ++ [e]) = takenIn deeds ++ e.2.taken?.toList := by
  unfold takenIn
  rw [List.filterMap_append]
  cases h : e.2.taken? <;> simp [h]

theorem Follows.pool (h : Follows (byWorkers x₀ p) p x₀ x es deeds) : Pool x₀ p x deeds := by
  induction h with
  | start => exact ⟨rfl, fun h => absurd rfl h, fun _ _ => rfl⟩
  | @acted x y es es' deeds j how deed s' h ok step does did ih =>
    obtain ⟨-, w, hw⟩ := ok
    obtain ⟨w', hw', hrunning⟩ := h.worker hw
    rw [hw'] at does
    obtain ⟨w'', hdoes, -⟩ := Step.Does.of_map does
    refine ⟨?_, fun _ => ⟨j, ?_⟩, fun i hi => ?_⟩
    · rw [takenIn_concat, List.append_assoc]
      show _ ++ (_ ++ (y.runtimes p).queue.channel.items) = _
      rw [did.queue, items_of_does hdoes did.fits]
      exact ih.items
    · have hruns : w'.isStopped = false := by
        cases w' with
        | stopped => cases hdoes
        | _ => rfl
      rw [hw]
      simp [isRunning, hrunning hruns]
    · rw [seats_setSeat, if_neg, did.seats]
      · exact ih.others i hi
      · rintro ⟨-, rfl⟩
        exact hi ⟨w, hw⟩
  | @other x y es es' deeds c h ok apart step ih =>
    cases c with
    | act q i how =>
      obtain ⟨rfl, -⟩ := ok
      exact absurd rfl (apart i how)
    | _ => cases ok

/-! ### A worker can always go on to wait for a task -/

private theorem channel_modify (x : System) (p : Nat) {f : Runtime → Runtime}
    (hf : ∀ r, (f r).queue.channel = r.queue.channel) :
    ((x.modify p f).runtimes p).queue.channel = (x.runtimes p).queue.channel := by
  simp only [modify, if_true]
  exact hf _

/-- A transition that is not over can come nearer to its end, and leave the channel alone. -/
private theorem exists_serve_transition (fired : (x.runtimes p).cancelled = true) (seat : Seat) (f : Transition → Job)
    (id : Int) (u : StatusUpdate) {tr : Transition} (running : ∀ result, tr ≠ .done result) :
    ∃ how tr' z es', x.serve p i seat how ((tr.next s id u).map f) = some (⟨seat.round, f tr'⟩, z, es') ∧
      tr'.distance < tr.distance ∧ (z.runtimes p).queue.channel = (x.runtimes p).queue.channel := by
  cases tr with
  | updating failures backoff =>
    refine ⟨.fail (.unavailable "down"), _, _, _, rfl, ?_, rfl⟩
    have hpassing : ¬ ((StoreError.unavailable "down").isConflict = true ∧ 0 < failures) := fun h => by cases h.1
    dsimp only [Transition.afterUpdate]
    rw [if_neg hpassing]
    split
    · exact Nat.le_refl 2
    · exact Nat.succ_pos 1
  | pausing e failures backoff =>
    exact ⟨.interrupt, .done (.error e), x, [], if_pos fired, Nat.le_refl 1, rfl⟩
  | confirming e => exact ⟨.fail (.unavailable "down"), .done (.error e), _, _, rfl, Nat.le_refl 1, rfl⟩
  | done result => exact absurd rfl (running result)

/-- A worker that runs and does not wait for a task yet can come nearer to it, and leave the channel alone. -/
private theorem exists_serve (fired : (x.runtimes p).cancelled = true) (seat : Seat) {w : Worker}
    (hw : seat.job = .worker w) (running : w.isStopped = false) (busy : w ≠ .idle) :
    ∃ how w' z es', x.serve p i seat how (seat.job.next s) = some (⟨seat.round, .worker w'⟩, z, es') ∧
      w'.isStopped = false ∧ w'.distance < w.distance ∧
      (z.runtimes p).queue.channel = (x.runtimes p).queue.channel := by
  rw [hw]
  cases w with
  | idle => exact absurd rfl busy
  | accepted task => exact ⟨.go, .claiming task x.wall (.start s), _, _, rfl, rfl, Nat.le_refl 8, rfl⟩
  | claiming task start tr =>
    by_cases hdone : ∃ result, tr = .done result
    · obtain ⟨result, rfl⟩ := hdone
      cases result with
      | ok a => exact ⟨.go, .announcing task start, _, _, rfl, rfl, Nat.le_refl 5, channel_modify _ _ fun _ => rfl⟩
      | error e =>
        cases he : e.isSuperseded with
        | true =>
          have hnext : (Job.worker (.claiming task start (.done (.error e)))).next s =
              .untrack task.id fun _ => .worker .idle := by simp [Job.next, Worker.next, he, Step.map]
          rw [hnext]
          exact ⟨.go, .idle, _, _, rfl, rfl, Nat.succ_pos 4, channel_modify _ _ fun _ => rfl⟩
        | false =>
          have hnext : (Job.worker (.claiming task start (.done (.error e)))).next s =
              .record .abandoned (.worker (.releasing task.id)) := by simp [Job.next, Worker.next, he, Step.map]
          rw [hnext]
          exact ⟨.go, .releasing task.id, _, _, rfl, rfl, by show 1 < 5; decide, channel_modify _ _ fun _ => rfl⟩
    · rw [not_exists] at hdone
      have hnext : (Job.worker (.claiming task start tr)).next s =
          (Worker.next s (.claiming task start tr)).map .worker := rfl
      rw [hnext, next_claiming s task start hdone, Step.map_map]
      obtain ⟨how, tr', z, es', hserve, hless, hchannel⟩ := exists_serve_transition (i := i) (s := s) fired seat
        (fun tr => .worker (.claiming task start tr)) task.id (Worker.claim task start) hdone
      exact ⟨how, _, z, es', hserve, rfl, Nat.add_lt_add_left hless 5, hchannel⟩
  | announcing task start => exact ⟨.go, .drawing task start, _, _, rfl, rfl, Nat.le_refl 4, rfl⟩
  | drawing task start =>
    exact ⟨.draw s.workMin.millis, .working task start (.ofMillis s.workMin.millis), x, [],
      if_pos ⟨Nat.le_refl _, Nat.le_max_left _ _⟩, rfl, Nat.le_refl 3, rfl⟩
  | working task start span =>
    exact ⟨.interrupt, .releasing task.id, x, [], if_pos fired, rfl, Nat.le_refl 2, rfl⟩
  | finishing task start =>
    exact ⟨.go, .completing task start (Worker.finishOf start x.wall) (.start s), _, _, rfl, rfl, Nat.le_refl 7, rfl⟩
  | completing task start finish tr =>
    by_cases hdone : ∃ result, tr = .done result
    · obtain ⟨result, rfl⟩ := hdone
      cases result with
      | ok a => exact ⟨.go, .counting task finish, _, _, rfl, rfl, Nat.le_refl 4, channel_modify _ _ fun _ => rfl⟩
      | error e =>
        exact ⟨.go, .releasing task.id, _, _, rfl, rfl, by show 1 < 4; decide, channel_modify _ _ fun _ => rfl⟩
    · rw [not_exists] at hdone
      have hnext : (Job.worker (.completing task start finish tr)).next s =
          (Worker.next s (.completing task start finish tr)).map .worker := rfl
      rw [hnext, next_completing s task start finish hdone, Step.map_map]
      obtain ⟨how, tr', z, es', hserve, hless, hchannel⟩ := exists_serve_transition (i := i) (s := s) fired seat
        (fun tr => .worker (.completing task start finish tr)) task.id (Worker.completion task finish) hdone
      exact ⟨how, _, z, es', hserve, rfl, Nat.add_lt_add_left hless 4, hchannel⟩
  | counting task finish =>
    exact ⟨.go, .closing task finish, _, _, rfl, rfl, Nat.le_refl 3, channel_modify _ _ fun _ => rfl⟩
  | closing task finish => exact ⟨.go, .releasing task.id, _, _, rfl, rfl, Nat.le_refl 2, rfl⟩
  | releasing id => exact ⟨.go, .idle, _, _, rfl, rfl, Nat.le_refl 1, channel_modify _ _ fun _ => rfl⟩
  | stopped => cases running

private theorem step_of_serve {how : How} {s' : Seat} {z : System} {es' : List Event}
    (h : x.serve p i (x.seats p i) how ((x.seats p i).job.next (x.runtimes p).settings) = some (s', z, es')) :
    x.step (.act p i how) =
      some (z.setSeat p i s', es' ++ (credit? s'.job).toList.map fun c => .credited ⟨p, i, s'.round⟩ c.1 c.2) := by
  simp only [step, act, h, Option.map_some]

namespace Follows

theorem byWorkers_act (h : Follows (byWorkers x₀ p) p x₀ x es deeds) {w : Worker} (hw : (x.seats p i).job = .worker w)
    (how : How) : byWorkers x₀ p (.act p i how) := by
  refine ⟨rfl, ?_⟩
  by_contra hnot
  rw [h.pool.others i hnot] at hw
  exact hnot ⟨w, hw⟩

/-- A worker that runs can give up what it does, and wait for a task. -/
theorem exists_idle (h : Follows (byWorkers x₀ p) p x₀ x es deeds) (fired : (x₀.runtimes p).cancelled = true)
    {w : Worker} (hw : (x.seats p i).job = .worker w) (running : w.isStopped = false) :
    ∃ y es' deeds', Follows (byWorkers x₀ p) p x₀ y es' deeds' ∧ (y.seats p i).job = .worker .idle ∧
      (y.runtimes p).queue.channel = (x.runtimes p).queue.channel := by
  -- each deed brings the worker nearer to its next wait, whatever it was at when the token fired
  induction hn : w.distance using Nat.strongRecOn generalizing x es deeds w with
  | ind n ih =>
    subst hn
    by_cases hidle : w = .idle
    · exact ⟨x, es, deeds, h, hidle ▸ hw, rfl⟩
    · obtain ⟨how, w', z, es', hserve, hrunning, hless, hchannel⟩ :=
        exists_serve (s := (x.runtimes p).settings) (i := i) (h.runtime.2 fired) _ hw running hidle
      obtain ⟨more, hmore⟩ := h.exists_step (h.byWorkers_act hw how) (step_of_serve hserve)
      have hseat : ((z.setSeat p i ⟨(x.seats p i).round, .worker w'⟩).seats p i).job = .worker w' := by
        rw [seats_setSeat, if_pos ⟨rfl, rfl⟩]
      obtain ⟨y, es'', deeds', hy, hyidle, hychannel⟩ := ih w'.distance hless hmore hseat hrunning rfl
      exact ⟨y, es'', deeds', hy, hyidle, hychannel.trans hchannel⟩

/-- The first in line takes the oldest task. -/
private theorem exists_receipt (h : Follows (byWorkers x₀ p) p x₀ x es deeds) {task : Task} {rest : List Task}
    (hw : (x.seats p i).job = .worker .idle) (first : (x.runtimes p).queue.channel.receivers.head? = some i)
    (items : (x.runtimes p).queue.channel.items = task :: rest) :
    ∃ y es' deeds', Follows (byWorkers x₀ p) p x₀ y es' deeds' ∧ (y.runtimes p).queue.channel.items = rest ∧
      ∃ j, isRunning (y.seats p j).job = true := by
  obtain ⟨c, hc⟩ := Channel.exists_takeFor first items
  have hitems : c.items = rest := by
    have hspec := (Channel.takeFor_spec hc).1
    rw [items] at hspec
    exact (List.cons.inj hspec).2.symm
  have hserve : x.serve p i (x.seats p i) .go ((x.seats p i).job.next (x.runtimes p).settings) =
      some (⟨(x.seats p i).round + 1, .worker (.accepted task)⟩, x.modifyChannel p fun _ => c, []) := by
    rw [hw]
    simp only [Job.next, Worker.next, Step.map, serve, hc]
  obtain ⟨more, hmore⟩ := h.exists_step (h.byWorkers_act hw .go) (step_of_serve hserve)
  refine ⟨_, _, _, hmore, ?_, i, ?_⟩
  · simp only [setSeat, modifyChannel, modify, if_true, hitems]
  · rw [seats_setSeat, if_pos ⟨rfl, rfl⟩]
    rfl

theorem inLine (h : Follows allowed p x₀ x es deeds) {q : Nat} (line : InLine q x₀) : InLine q x := by
  induction h with
  | start => exact line
  | acted _ _ step _ _ ih => exact ih.step step
  | other _ _ _ step ih => exact ih.step step

/-- Whoever waits for a task is an idle worker, if nobody else has come to wait. -/
private theorem idle_of_waits (h : Follows (byWorkers x₀ p) p x₀ x es deeds)
    (nobody : ∀ i, (x₀.seats p i).job ≠ .receive) (waits : receives (x.seats p i).job = true) :
    (x.seats p i).job = .worker .idle := by
  by_cases hworker : x₀.HasWorker p i
  · obtain ⟨w, hw⟩ := hworker
    obtain ⟨w', hw', -⟩ := h.worker hw
    rw [hw'] at waits ⊢
    cases w' with
    | idle => rfl
    | _ => cases waits
  · rw [h.pool.others i hworker] at waits ⊢
    cases hjob : (x₀.seats p i).job with
    | receive => exact absurd hjob (nobody i)
    | worker w => exact absurd ⟨w, hjob⟩ hworker
    | _ =>
      rw [hjob] at waits
      cases waits

/-- As long as a worker runs and nobody else waits for tasks, the oldest task in the channel can be taken. -/
private theorem exists_take (h : Follows (byWorkers x₀ p) p x₀ x es deeds) (fired : (x₀.runtimes p).cancelled = true)
    (line : InLine p x₀) (nobody : ∀ i, (x₀.seats p i).job ≠ .receive) (running : isRunning (x.seats p i).job = true)
    {task : Task} {rest : List Task} (items : (x.runtimes p).queue.channel.items = task :: rest) :
    ∃ y es' deeds', Follows (byWorkers x₀ p) p x₀ y es' deeds' ∧ (y.runtimes p).queue.channel.items = rest ∧
      ∃ j, isRunning (y.seats p j).job = true := by
  cases hline : (x.runtimes p).queue.channel.receivers with
  | cons j others =>
    -- somebody waits already, and that is a worker
    have hfirst : (x.runtimes p).queue.channel.receivers.head? = some j := by rw [hline]; rfl
    have hwaits := (h.inLine line).waits j (by rw [hline]; exact List.mem_cons_self)
    have hidle := h.idle_of_waits nobody hwaits
    exact h.exists_receipt hidle hfirst items
  | nil =>
    -- the worker that runs comes to wait
    cases hjob : (x.seats p i).job with
    | worker w =>
      rw [hjob] at running
      obtain ⟨y, es', deeds', hy, hidle, hchannel⟩ := h.exists_idle fired hjob (by simpa [isRunning] using running)
      have hserve : y.serve p i (y.seats p i) .go ((y.seats p i).job.next (y.runtimes p).settings) =
          some (y.seats p i, y.modifyChannel p fun c => c.queueUp i, []) := by
        rw [hidle]
        simp [Job.next, Worker.next, Step.map, serve, hchannel, Channel.takeFor, hline]
      obtain ⟨more, hmore⟩ := hy.exists_step (hy.byWorkers_act hidle .go) (step_of_serve hserve)
      have hafter : (((y.modifyChannel p fun c => c.queueUp i).setSeat p i (y.seats p i)).runtimes p).queue.channel =
          (x.runtimes p).queue.channel.queueUp i := by
        rw [← hchannel]
        simp only [setSeat, modifyChannel, modify, if_true]
      exact hmore.exists_receipt (by rw [seats_setSeat, if_pos ⟨rfl, rfl⟩]; exact hidle)
        (by rw [hafter]; simp [Channel.queueUp, hline]) (by rw [hafter]; exact items)
    | _ =>
      rw [hjob] at running
      cases running

/-- The workers can take as many of the tasks in the channel as they like. -/
theorem exists_taken (fired : (x.runtimes p).cancelled = true) (line : InLine p x)
    (nobody : ∀ i, (x.seats p i).job ≠ .receive) (running : isRunning (x.seats p i).job = true) (n : Nat) :
    ∃ y es deeds, Follows (byWorkers x p) p x y es deeds ∧
      (y.runtimes p).queue.channel.items = (x.runtimes p).queue.channel.items.drop n ∧
        ∃ j, isRunning (y.seats p j).job = true := by
  induction n with
  | zero => exact ⟨x, [], [], .start, rfl, i, running⟩
  | succ n ih =>
    obtain ⟨y, es, deeds, h, hitems, j, hj⟩ := ih
    cases hrest : (x.runtimes p).queue.channel.items.drop n with
    | nil =>
      rw [hrest] at hitems
      have hdrop : (x.runtimes p).queue.channel.items.drop (n + 1) = [] := by
        rw [← List.drop_drop, hrest, List.drop_nil]
      exact ⟨y, es, deeds, h, by rw [hitems, hdrop], j, hj⟩
    | cons task rest =>
      rw [hrest] at hitems
      obtain ⟨y', es', deeds', h', hitems', hrunning⟩ := h.exists_take fired line nobody hj hitems
      refine ⟨y', es', deeds', h', ?_, hrunning⟩
      rw [hitems', ← List.drop_drop, hrest]
      rfl

end Follows

/-- The tasks that the workers of a runtime may take if nobody else acts: as many of those in the channel as they like,
as long as one of them runs. -/
theorem exists_takenIn_iff (fired : (x.runtimes p).cancelled = true) (line : InLine p x)
    (nobody : ∀ i, (x.seats p i).job ≠ .receive) (taken : List Task) :
    (∃ y es deeds, Follows (byWorkers x p) p x y es deeds ∧ takenIn deeds = taken) ↔
      taken <+: (x.runtimes p).queue.channel.items ∧ (taken = [] ∨ ∃ i, isRunning (x.seats p i).job = true) := by
  constructor
  · rintro ⟨y, es, deeds, h, rfl⟩
    refine ⟨⟨_, h.pool.items⟩, ?_⟩
    by_cases hnone : takenIn deeds = []
    · exact .inl hnone
    · exact .inr (h.pool.running hnone)
  · rintro ⟨⟨rest, hitems⟩, rfl | ⟨i, hrunning⟩⟩
    · exact ⟨x, [], [], .start, rfl⟩
    · obtain ⟨y, es, deeds, h, hleft, -⟩ := Follows.exists_taken fired line nobody hrunning taken.length
      refine ⟨y, es, deeds, h, ?_⟩
      have hall := h.pool.items
      rw [hleft, ← hitems, List.drop_left] at hall
      exact List.append_cancel_right hall

/-! ### A task that no worker takes -/

/-- A worker asks for an update of no other task than the one that it holds. -/
private theorem held_of_does {w w' : Worker} (h : (w.next s).Does w deed w') {id : Int} {u : StatusUpdate}
    (hdeed : (∃ result, deed = .ask (.updateStatus id u) result) ∨ deed = .drop (.updateStatus id u)) :
    w.held? = some id := by
  have hasks : (w.next s).Asks fun r => ∀ id u, r = .updateStatus id u → w.held? = some id := by
    refine asks_worker (fun id _ _ hr => by cases hr) ?_ ?_
    · rintro task start tr rfl - _ _ ⟨⟩
      rfl
    · rintro task start finish tr rfl _ _ ⟨⟩
      rfl
  exact h.asks hasks hdeed id u rfl

/-- No worker in certain seats of a runtime has anything to do with a task: none of them holds it, and no update of it
drifts from there. -/
structure Unclaimed (p : Nat) (pool : Nat → Prop) (id : Int) (x : System) : Prop where
  held : ∀ i w, pool i → (x.seats p i).job = .worker w → w.held? ≠ some id
  drifting : ∀ c ∈ x.drifting, c.1.runtime = p → pool c.1.seat → ∀ u, c.2 ≠ .updateStatus id u

variable {pool : Nat → Prop} {id : Int}

/-- Whoever acts leaves no update of the task to drift from the seats of the workers, and does not move it from there,
unless it is one of them who asks for the update. -/
private theorem Unclaimed.serve (h : Unclaimed p pool id x) {q j : Nat} {seat s' : Seat}
    (did : Did x q j seat deed s' y es) (apart : q = p → pool j → ∀ u,
      ¬ ((∃ result, deed = .ask (.updateStatus id u) result) ∨ deed = .drop (.updateStatus id u))) :
    (∀ c ∈ y.drifting, c.1.runtime = p → pool c.1.seat → ∀ u, c.2 ≠ .updateStatus id u) ∧
      ∀ a version, Event.landed a id version ∈ es → ¬ (a.runtime = p ∧ pool a.seat) := by
  constructor
  · rintro ⟨a, r⟩ hc hp hpool u rfl
    rcases did.stored.of_drifting hc with hin | ⟨rfl, hdeed⟩
    · exact h.drifting _ hin hp hpool u rfl
    · exact apart hp hpool u (hdeed.imp (fun ⟨e, he⟩ => ⟨_, he⟩) fun hdrop => hdrop)
  · rintro a version he ⟨hp, hpool⟩
    obtain ⟨r, result, rfl, hlanding⟩ := did.stored.of_landed he
    obtain ⟨rfl, u, rfl⟩ := mem_landing hlanding
    exact apart hp hpool u (.inl ⟨result, rfl⟩)

private theorem not_landed_credited {a a' : Author} {version : Int} {o : Option (Int × Int)} :
    Event.landed a id version ∉ o.toList.map fun c => .credited a' c.1 c.2 := by
  cases o <;> simp

/-- It stays so when whoever sits in a seat of the runtime acts, unless a worker takes the task. -/
private theorem Unclaimed.act (h : Unclaimed p pool id x) {j : Nat} {s' : Seat}
    (workers : pool j → ∃ w, (x.seats p j).job = .worker w)
    (does : ((x.seats p j).job.next (x.runtimes p).settings).Does (x.seats p j).job deed s'.job)
    (did : Did x p j (x.seats p j) deed s' y es) (untaken : ∀ t, deed = .take t → t.id ≠ id) :
    Unclaimed p pool id (y.setSeat p j s') ∧
      ∀ a version, Event.landed a id version ∈ es → ¬ (a.runtime = p ∧ pool a.seat) := by
  have hworker (hpool : pool j) : ∃ w w' : Worker, w.held? ≠ some id ∧ s'.job = .worker w' ∧
      (w.next (x.runtimes p).settings).Does w deed w' := by
    obtain ⟨w, hw⟩ := workers hpool
    have hheld := h.held j w hpool hw
    rw [hw] at does
    obtain ⟨w', hdoes, hw'⟩ := Step.Does.of_map does
    exact ⟨w, w', hheld, hw', hdoes⟩
  obtain ⟨hdrifting, hlanded⟩ := h.serve did fun _ hpool u hdeed => by
    obtain ⟨w, w', hheld, -, hdoes⟩ := hworker hpool
    exact hheld (held_of_does hdoes hdeed)
  refine ⟨⟨fun i v hpool hv => ?_, hdrifting⟩, hlanded⟩
  by_cases hi : i = j
  · subst hi
    obtain ⟨w, w', hheld, hw', hdoes⟩ := hworker hpool
    rw [seats_setSeat, if_pos ⟨rfl, rfl⟩, hw'] at hv
    obtain rfl : w' = v := Job.worker.inj hv
    have hholds := Worker.holds_of_does hdoes
    generalize w.held? = held, w'.held? = held' at hholds hheld
    cases hholds with
    | take task =>
      intro he
      exact untaken task rfl (Option.some.inj he)
    | aside haside => exact hheld
    | _ => simp
  · rw [seats_setSeat, if_neg fun he => hi he.2, did.seats] at hv
    exact h.held i v hpool hv

private theorem Unclaimed.elsewhere (h : Unclaimed p pool id x) {c : Choice} (step : x.step c = some (y, es))
    (apart : ∀ i how, c ≠ .act p i how) (workers : ∀ i, pool i → ∃ w, (x.seats p i).job = .worker w) :
    Unclaimed p pool id y ∧
      ∀ a version, Event.landed a id version ∈ es → ¬ (a.runtime = p ∧ pool a.seat) := by
  have hoccurs := occurs_of_step step
  have hheld (i : Nat) (w : Worker) (hpool : pool i) (hw : (y.seats p i).job = .worker w) : w.held? ≠ some id := by
    obtain ⟨w', hw'⟩ := workers i hpool
    have hseat := hoccurs.seat (p := p) (i := i) (by simp [hw']) (apart i)
    rw [hseat] at hw
    exact h.held i w hpool hw
  cases hoccurs with
  | @acted q j how deed s' z es₁ does did =>
    obtain ⟨hdrifting, hlanded⟩ := h.serve did fun hq => absurd (hq ▸ rfl) (apart j how)
    refine ⟨⟨hheld, hdrifting⟩, fun a version he => ?_⟩
    rcases List.mem_append.1 he with he | he
    · exact hlanded a version he
    · exact absurd he not_landed_credited
  | @landed k a r drifts =>
    refine ⟨⟨hheld, fun c hc => h.drifting c (List.mem_of_mem_eraseIdx hc)⟩, ?_⟩
    rintro a' version he ⟨hp, hpool⟩
    obtain ⟨rfl, u, rfl⟩ := mem_landing he
    exact h.drifting _ (List.mem_of_getElem? drifts) hp hpool u rfl
  | _ => exact ⟨⟨hheld, h.drifting⟩, fun a version he => by cases he⟩

/-- As long as nobody takes the task, the workers do not come to have anything to do with it, and do not move it. -/
theorem Follows.unclaimed (h : Follows allowed p x₀ x es deeds) (unclaimed : Unclaimed p (x₀.HasWorker p) id x₀)
    (untaken : ∀ t ∈ takenIn deeds, t.id ≠ id) :
    Unclaimed p (x₀.HasWorker p) id x ∧
      ∀ a version, Event.landed a id version ∈ es → ¬ (a.runtime = p ∧ x₀.HasWorker p a.seat) := by
  have workers {x : System} {es : List Event} {deeds : List (Nat × Deed)} (h : Follows allowed p x₀ x es deeds)
      (i : Nat) (hpool : x₀.HasWorker p i) : ∃ w, (x.seats p i).job = .worker w := by
    obtain ⟨w₀, hw₀⟩ := hpool
    obtain ⟨w, hw, -⟩ := h.worker hw₀
    exact ⟨w, hw⟩
  induction h with
  | start => exact ⟨unclaimed, fun a version he => by cases he⟩
  | @acted x y es es' deeds j how deed s' h ok step does did ih =>
    rw [takenIn_concat] at untaken
    obtain ⟨hbefore, hmoved⟩ := ih fun t ht => untaken t (List.mem_append_left _ ht)
    have hnot (t : Task) (ht : deed = .take t) : t.id ≠ id :=
      untaken t (List.mem_append_right _ (by rw [ht]; exact List.mem_singleton_self _))
    obtain ⟨hafter, hlanded⟩ := hbefore.act (workers h j) does did hnot
    refine ⟨hafter, fun a version he => ?_⟩
    rcases List.mem_append.1 he with he | he
    · exact hmoved a version he
    · rcases List.mem_append.1 he with he | he
      · exact hlanded a version he
      · exact absurd he not_landed_credited
  | @other x y es es' deeds c h ok apart step ih =>
    obtain ⟨hbefore, hmoved⟩ := ih untaken
    obtain ⟨hafter, hlanded⟩ := hbefore.elsewhere step apart (workers h)
    exact ⟨hafter, fun a version he => (List.mem_append.1 he).elim (hmoved a version) (hlanded a version)⟩

/-- A task that has not been moved since it was shown is shown with the same status and version. -/
private theorem same_of_unmoved {m m' : Memory} {es' : List Event} (hledger : Ledger x.store m es)
    (hledger' : Ledger y.store m' (es ++ es')) (hrecalls : ∀ t, m.Recalls t → m'.Recalls t)
    (unmoved : moveCount id es' = 0) {now : Timestamp} {t t' : Task}
    (ht : (x.store.perform now (.get id)).1 = .ok (some t)) (ht' : (y.store.perform now (.get id)).1 = .ok (some t')) :
    t'.status = t.status ∧ t'.version = t.version := by
  have hstored {b : Backend} {m : Memory} {t : Task} (h : b.Represents m)
      (ht : (b.perform now (.get id)).1 = .ok (some t)) : ∃ r, m.find? id = some r ∧ b.shows r = t := by
    rw [h.get] at ht
    cases hr : m.find? id with
    | none =>
      rw [hr] at ht
      cases ht
    | some r =>
      rw [hr] at ht
      cases ht
      exact ⟨r, rfl, rfl⟩
  obtain ⟨r, hr, rfl⟩ := hstored hledger.represents ht
  obtain ⟨r', hr', rfl⟩ := hstored hledger'.represents ht'
  have hcount := (hledger.entered id r hr).counted
  have hcount' := (hledger'.entered id r' hr').counted
  rw [moveCount_append, unmoved, Nat.add_zero] at hcount'
  have hversion : r'.version = r.version := hcount'.symm.trans hcount
  obtain rfl : r.id = id := Memory.id_of_find? hr
  have honward := (hrecalls r (hledger.ordered.recalls_of_mem (Memory.mem_of_find? hr))).2 r' hr'
  simp only [Backend.shows_status, Backend.shows_version]
  refine ⟨?_, hversion⟩
  rcases honward with hlt | hsame
  · omega
  · rw [hsame]

/-- **Main theorem.**  Any number of runtimes share a store of either kind, and the token of one of them has fired.  Its
workers may still take tasks out of the channel: just those that the channel holds, from the front and as many of them
as they like, and none if no worker runs any more or the channel is empty.  Whatever else happens, a task with which no
worker had anything to do keeps its status and its version unless somebody else changes it or takes it out of the
channel. -/
theorem Reaches.taken_after_firing {b : Backend} {wall : Timestamp} {settings : Nat → Settings}
    (hb : b = .memory .empty ∨ b = .table .fresh) (h : Reaches allowed (.start b wall settings) x es)
    (fired : (x.runtimes p).cancelled = true) (nobody : ∀ i, (x.seats p i).job ≠ .receive) :
    (∀ taken, (∃ y es' deeds, Follows (byWorkers x p) p x y es' deeds ∧ takenIn deeds = taken) ↔
      taken <+: (x.runtimes p).queue.channel.items ∧ (taken = [] ∨ ∃ i, isRunning (x.seats p i).job = true)) ∧
    ∀ y es' deeds id, Follows (fun _ => True) p x y es' deeds →
      (∀ j, (moveCount j (es ++ es') : Int) ≤ Sql.mostInteger) → Unclaimed p (x.HasWorker p) id x →
      (∀ a version, Event.landed a id version ∈ es' → a.runtime = p ∧ x.HasWorker p a.seat) →
      (∀ c ∈ takenIn deeds, c.id ≠ id) →
      ∀ now t t', (x.store.perform now (.get id)).1 = .ok (some t) → (y.store.perform now (.get id)).1 = .ok (some t') →
        t'.status = t.status ∧ t'.version = t.version := by
  refine ⟨exists_takenIn_iff fired (inLine_of_reaches h p) nobody, ?_⟩
  intro y es' deeds id hfollows few unclaimed alone untaken now t t' ht ht'
  have hunmoved : moveCount id es' = 0 := by
    refine List.countP_eq_zero.2 fun c hc hid => ?_
    obtain ⟨a, ha⟩ := mem_moves.1 hc
    rw [of_decide_eq_true hid] at ha
    exact (hfollows.unclaimed unclaimed untaken).2 a c.2 ha (alone a c.2 ha)
  obtain ⟨m, hledger⟩ := ledger_of_reaches hb h fun j => by
    have hfew := few j
    rw [moveCount_append] at hfew
    omega
  obtain ⟨m', hledger', hrecalls⟩ := hledger.reaches hfollows.reaches few
  exact same_of_unmoved hledger hledger' hrecalls hunmoved ht ht'

/-- A task waits in the channel, and a worker waits for a task, when the token fires. -/
def leftOver : List Choice :=
  [[.spawn 0 0 (.ask (.create ⟨"text", "user"⟩) none), .act 0 0 .go, .spawn 0 0 (.poll .starting)],
    List.replicate 7 (.act 0 0 .go), [.spawn 0 1 (.worker .idle), .cancel 0]].flatten

/-- The worker may take the task that waits in the channel, or leave it, but no other one. -/
theorem taken_after_firing_of_leftOver : ∃ x es c,
    Reaches (fun _ => True) (.start (.memory .empty) default fun _ => .standard) x es ∧
      (x.runtimes 0).cancelled = true ∧ (x.runtimes 0).queue.channel.items = [c] ∧
      ∀ taken, (∃ y es' deeds, Follows (byWorkers x 0) 0 x y es' deeds ∧ takenIn deeds = taken) ↔
        taken <+: [c] ∧ (taken = [] ∨ ∃ i, isRunning (x.seats 0 i).job = true) := by
  have allowed : ∀ c ∈ leftOver, (fun _ => True) c := fun _ _ => trivial
  have reaches := Reaches.start.run
    (x := .start (.memory .empty) default fun _ => .standard) allowed rfl
  have taken := (reaches.taken_after_firing (p := 0) (.inl rfl) rfl (by
    intro i
    match i with
    | 0 => exact nofun
    | 1 => exact nofun
    | i + 2 => exact nofun)).1
  exact ⟨_, _, _, reaches, rfl, rfl, taken⟩

/-- A worker takes a task after its token has fired, and claims it. -/
theorem claimed_after_firing : ∃ x y es es' c,
    (start (.memory .empty) default fun _ => .standard).run leftOver = some (x, es) ∧
      (x.runtimes 0).cancelled = true ∧ (x.runtimes 0).queue.channel.items = [c] ∧
      (x.store.perform default (.get c.id)).1 = .ok (some c) ∧ c.status = .pending ∧ c.version = 0 ∧
      x.run (List.replicate 4 (.act 0 1 .go)) = some (y, es') ∧
      (y.runtimes 0).queue.channel.items = [] ∧
      ∃ t, (y.store.perform default (.get c.id)).1 = .ok (some t) ∧ t.status = .processing ∧ t.version = 1 :=
  ⟨_, _, _, _, _, rfl, rfl, rfl, rfl, rfl, rfl, rfl, rfl, _, rfl, rfl, rfl⟩

end System

end Interleaving

end Backlog

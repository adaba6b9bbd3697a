import Backlog.Proofs.Interleaving.Mistake
import Backlog.Proofs.Interleaving.Stint

/-!
# The work of one runtime

The workers of one runtime are the only ones that claim and complete tasks.  Its queue may be fed by anybody, so that a
task may come to several of its workers.  Dispatchers may take tasks back and give them up meanwhile.  The wall clock
may stand still, but it does not go back.

A worker looks at the clock when it begins with a task, and again when it has done the work.  Both moments are kept as
an entry of a list of all the work that was done (`Work`), beside the events that tell what happened to the store.

Key facts: a worker that sits in a seat sat there before, has just begun, or has done a deed with what the wall clock
shows (`System.worker_cases`).
-/

namespace Backlog.Interleaving

open Dispatch Simulation Store

/-! ### Who claims and completes -/

/-- Nobody but the workers of one runtime claims or completes tasks, and nobody else changes a status but dispatchers
that take tasks back or give them up. -/
def inOneRuntime (p : Nat) : Choice → Prop
  | .spawn q _ job => (q ≠ p → ∀ w, job ≠ .worker w) ∧ ∀ id u limit, job ≠ .ask (.updateStatus id u) limit
  | _ => True

/-- Work that was done on a task: who has done it, when that worker began, and what the clock showed afterwards. -/
structure Work where
  worker : Author
  task : Task
  began : Timestamp
  ended : Timestamp

/-- The end of some work, as its worker completes the task with it. -/
def Work.finish (w : Work) : Timestamp := Worker.finishOf w.began w.ended

/-- The work that is done with a choice: a worker looks at the clock after it. -/
def System.workDone (x : System) : Choice → List Work
  | .act p i _ =>
    match (x.seats p i).job with
    | .worker (.finishing task start) => [⟨⟨p, i, (x.seats p i).round⟩, task, start, x.wall⟩]
    | _ => []
  | _ => []

/-- The moment that the wall clock is made to show. -/
def Choice.moment? : Choice → Option Timestamp
  | .setWall wall => some wall
  | _ => none

/-- What can come of a system by choices of a kind, while the wall clock does not go back and shows moments of a kind,
with the events on the way there and the work that is done. -/
inductive System.Proceeds (allowed : Choice → Prop) (shown : Timestamp → Prop) (x₀ : System) :
    System → List Event → List Work → Prop where
  | start : Proceeds allowed shown x₀ x₀ [] []
  | step {x y es es' works c} (h : Proceeds allowed shown x₀ x es works) (ok : allowed c)
      (clock : ∀ wall, c = .setWall wall → ¬ wall < x.wall ∧ shown wall) (s : x.step c = some (y, es')) :
    Proceeds allowed shown x₀ y (es ++ es') (works ++ x.workDone c)

variable {x y : System} {p i : Nat} {es es' : List Event} {works : List Work} {settings : Settings} {job job' : Job}
  {deed : Deed} {allowed : Choice → Prop} {shown : Timestamp → Prop} {x₀ : System}

/-- The wall clock is set, or it goes on to show what it showed. -/
theorem System.wall_of_step {c : Choice} (hstep : x.step c = some (y, es)) :
    y.wall = c.moment?.getD x.wall := by
  cases System.occurs_of_step hstep with
  | acted does did => exact did.wall
  | _ => rfl

namespace System.Proceeds

theorem reaches (h : System.Proceeds allowed shown x₀ x es works) : System.Reaches allowed x₀ x es := by
  induction h with
  | start => exact .start
  | step _ ok _ s ih => exact ih.step ok s

/-- Many choices of a kind that let the clock show moments of a kind, one after another. -/
theorem exists_run (h : System.Proceeds allowed shown x₀ x es works) {cs : List Choice} (ok : ∀ c ∈ cs, allowed c)
    (ascending : (x.wall :: cs.filterMap Choice.moment?).Pairwise fun before now => ¬ now < before)
    (showing : ∀ now ∈ cs.filterMap Choice.moment?, shown now) (hrun : x.run cs = some (y, es')) :
    ∃ works', System.Proceeds allowed shown x₀ y (es ++ es') works' := by
  induction cs generalizing x es es' works with
  | nil =>
    cases hrun
    rw [List.append_nil]
    exact ⟨works, h⟩
  | cons c rest ih =>
    simp only [System.run, Option.bind_eq_bind, Option.bind_eq_some_iff] at hrun
    obtain ⟨⟨z, es₁⟩, hstep, ⟨y', es₂⟩, hrest, hdone⟩ := hrun
    cases hdone
    have hwall := wall_of_step hstep
    have hnext (hlater : ∀ now, c = .setWall now → ¬ now < x.wall ∧ shown now)
        (hascending : (z.wall :: rest.filterMap Choice.moment?).Pairwise fun before now => ¬ now < before)
        (hshowing : ∀ now ∈ rest.filterMap Choice.moment?, shown now) :
        ∃ works', System.Proceeds allowed shown x₀ y' (es ++ (es₁ ++ es₂)) works' := by
      rw [← List.append_assoc]
      exact ih (h.step (ok c List.mem_cons_self) hlater hstep) (fun c hc => ok c (List.mem_cons_of_mem _ hc)) hascending
        hshowing hrest
    cases c with
    | setWall now =>
      rw [List.filterMap_cons_some (f := Choice.moment?) rfl] at ascending showing
      obtain ⟨hfirst, hrising⟩ := List.pairwise_cons.1 ascending
      refine hnext ?_ (hwall ▸ hrising) fun now hnow => showing now (List.mem_cons_of_mem _ hnow)
      rintro _ ⟨⟩
      exact ⟨hfirst now List.mem_cons_self, showing now List.mem_cons_self⟩
    | _ =>
      rw [List.filterMap_cons_none (f := Choice.moment?) rfl] at ascending showing
      exact hnext (fun now hnow => by cases hnow) (hwall ▸ ascending) showing

end System.Proceeds

/-! ### Whoever is a worker or passes on a request -/

/-- Nobody comes to pass on a request, and only a worker comes to be a worker. -/
theorem kind_of_does (h : (job.next settings).Does job deed job') : (∀ r limit, job' ≠ .ask r limit) ∧
    ∀ w', job' = .worker w' → ∃ w, job = .worker w ∧ (w.next settings).Does w deed w' := by
  have other (hjob' : (∀ r limit, job' ≠ .ask r limit) ∧ ∀ w', job' ≠ .worker w') : (∀ r limit, job' ≠ .ask r limit) ∧
      ∀ w', job' = .worker w' → ∃ w, job = .worker w ∧ (w.next settings).Does w deed w' :=
    ⟨hjob'.1, fun w' hw' => absurd hw' (hjob'.2 w')⟩
  cases job with
  | worker w =>
    obtain ⟨w', hdoes, rfl⟩ := Step.Does.of_map h
    exact ⟨by simp, fun w₁ hw₁ => ⟨w, rfl, by cases hw₁; exact hdoes⟩⟩
  | dispatcher d =>
    obtain ⟨d', -, rfl⟩ := Step.Does.of_map h
    exact other (by simp)
  | poll poll =>
    obtain ⟨poll', -, rfl⟩ := Step.Does.of_map h
    exact other (by simp)
  | reclaim pass =>
    obtain ⟨pass', -, rfl⟩ := Step.Does.of_map h
    exact other (by simp)
  | enqueue interruptible task stage =>
    obtain ⟨stage', -, rfl⟩ := Step.Does.of_map h
    exact other (by simp)
  | ask r limit =>
    cases h with
    | ask result => exact other (by simp)
    | drop hy => cases hy
  | receive =>
    cases h with
    | turnAway hy => cases hy
    | _ => exact other (by simp)
  | pause span =>
    cases h with
    | rest => exact other (by simp)
    | rouse hy => cases hy
  | ended reply => cases h

/-- As long as only the workers of one runtime claim and complete tasks, nobody else comes to be a worker, and nobody
comes to pass on an update. -/
theorem System.confined_of_step {c : Choice} (ok : inOneRuntime p c) (hstep : x.step c = some (y, es))
    (workers : ∀ q i w, (x.seats q i).job = .worker w → q = p)
    (told : ∀ q i id u limit, (x.seats q i).job ≠ .ask (.updateStatus id u) limit) :
    (∀ q i w, (y.seats q i).job = .worker w → q = p) ∧
      ∀ q i id u limit, (y.seats q i).job ≠ .ask (.updateStatus id u) limit := by
  refine ⟨fun q i w' hw' => ?_, fun q i id u limit hask => ?_⟩
  all_goals
    rcases (System.occurs_of_step hstep).seat_cases q i with
      hsame | ⟨reply, job, rfl, -, -, hjob⟩ | ⟨how, deed, s', z, es₁, -, -, hseat, does, -⟩
  · exact workers q i w' (hsame ▸ hw')
  · by_contra hq
    exact ok.1 hq w' (hjob.symm.trans hw')
  · obtain ⟨w, hw, -⟩ := (kind_of_does does).2 w' (hseat ▸ hw')
    exact workers q i w hw
  · exact told q i id u limit (hsame ▸ hask)
  · exact ok.2 id u limit (hjob.symm.trans hask)
  · exact (kind_of_does does).1 _ _ (hseat ▸ hask)

/-- What a job is asked for that is neither a worker nor passes on an update retires a task. -/
theorem retires_of_does {id : Int} {u : StatusUpdate} (h : (job.next settings).Does job deed job')
    (hdeed : (∃ result, deed = .ask (.updateStatus id u) result) ∨ deed = .drop (.updateStatus id u))
    (noWorker : ∀ w, job ≠ .worker w) (own : ∀ limit, job ≠ .ask (.updateStatus id u) limit) :
    ∃ t, u = Retirement.update settings t := by
  have hasks : (job.next settings).Asks fun r => r = .updateStatus id u → ∃ t, u = Retirement.update settings t := by
    refine asks_of_parts (fun a hr => by cases hr) ?_ (fun w hw => absurd hw (noWorker w)) ?_
    · rintro t - ⟨⟩
      exact ⟨t, rfl⟩
    · rintro r limit hjob rfl
      exact absurd hjob (own limit)
  exact h.asks hasks hdeed rfl

/-! ### The clock that a worker reads -/

/-- The deed, where a look at the wall clock shows the given moment. -/
def seenAt (wall : Timestamp) : Deed → Deed
  | .readWallClock _ => .readWallClock wall
  | deed => deed

/-- Whoever looks at the wall clock sees what it shows. -/
private theorem does_seenAt {how : How} {s' : Seat} {z : System}
    (hstep : x.step (.act p i how) = some (z.setSeat p i s', es))
    (does : ((x.seats p i).job.next (x.runtimes p).settings).Does (x.seats p i).job deed s'.job) :
    ((x.seats p i).job.next (x.runtimes p).settings).Does (x.seats p i).job (seenAt x.wall deed) s'.job := by
  cases deed with
  | readWallClock now =>
    generalize hnext : (x.seats p i).job.next (x.runtimes p).settings = st at does
    generalize hjob : s'.job = job' at does
    cases does with
    | @readWallClock next _ =>
      have hserved : s'.job = next x.wall := by
        simp only [System.step, System.act, hnext, System.serve, Option.map_some, Option.some.injEq,
          Prod.mk.injEq] at hstep
        have hseat := congrArg (fun z => (z.seats p i).job) hstep.1
        simp only [System.seats_setSeat, true_and, if_true] at hseat
        exact hseat.symm
      rw [hjob] at hserved
      rw [hserved]
      exact .readWallClock x.wall
  | _ => exact does

/-- What comes of the store by a deed does not hang on what the wall clock shows. -/
private theorem System.Stored.seenAt {a : Author} {z : System} (h : System.Stored x a deed z es) (wall : Timestamp) :
    System.Stored x a (seenAt wall deed) z es := by
  cases deed with
  | readWallClock now =>
    cases h with
    | aside noCall store drifting => exact .aside rfl store drifting
  | _ => exact h

/-- A worker in a seat does a deed with what the wall clock shows. -/
structure Turned (x y : System) (p i : Nat) (c : Choice) (es : List Event) (w : Worker) (deed : Deed) (w' : Worker) :
    Prop where
  acts : ∃ how, c = .act p i how
  job : (x.seats p i).job = .worker w
  does : (w.next (x.runtimes p).settings).Does w deed w'
  seen : ∀ now, deed = .readWallClock now → now = x.wall
  stored : ∃ z es₁, System.Stored x ⟨p, i, (x.seats p i).round⟩ deed z es₁ ∧ y.store = z.store ∧
    ∀ id, moveCount id es = moveCount id es₁
  wall : y.wall = x.wall
  round : (y.seats p i).round = if deed.isTake then (x.seats p i).round + 1 else (x.seats p i).round

/-- A worker was there before, or it has just begun, or it has done a deed. -/
theorem System.worker_cases {c : Choice} (hstep : x.step c = some (y, es')) {w' : Worker}
    (hw' : (y.seats p i).job = .worker w') :
    y.seats p i = x.seats p i ∨ w' = .idle ∨ ∃ w deed, Turned x y p i c es' w deed w' := by
  rcases (System.occurs_of_step hstep).seat_cases p i with
    hsame | ⟨reply, job, -, begins, -, hjob⟩ | ⟨how, deed, s', z, es₁, rfl, rfl, hseat, does, did, rfl⟩
  · exact .inl hsame
  · rw [hw'] at hjob
    subst hjob
    cases w' with
    | idle => exact .inr (.inl rfl)
    | _ => cases begins
  · rw [hseat] at hw'
    have hseen := does_seenAt hstep does
    obtain ⟨w, hw, hdoes⟩ := (kind_of_does hseen).2 w' hw'
    refine .inr (.inr ⟨w, seenAt x.wall deed, ⟨how, rfl⟩, hw, hdoes, fun now hnow => ?_,
      ⟨z, es₁, did.stored.seenAt x.wall, rfl, fun id => ?_⟩, did.wall, ?_⟩)
    · cases deed <;> cases hnow
      rfl
    · have hnone : moveCount id ((credit? s'.job).toList.map fun c => Event.credited ⟨p, i, s'.round⟩ c.1 c.2) = 0 := by
        unfold moveCount
        rw [moves_credits]
        rfl
      rw [moveCount_append, hnone, Nat.add_zero]
    · rw [hseat, did.round]
      cases deed <;> rfl

end Backlog.Interleaving

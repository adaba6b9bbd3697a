import Backlog.Proofs.Interleaving.Apart
import Backlog.Proofs.Interleaving.Chronology
import Backlog.Proofs.Interleaving.Works

/-!
# Work ends after it has begun

The workers of one runtime are the only ones that claim and complete tasks.  Their claims and completions may fail, be
made again, drift for as long as they like and take effect late, and dispatchers may take tasks back meanwhile, but the
wall clock never goes back.

A worker writes an end that is later than its own beginning.  But it may take its claim for made where the stored start
was written by another worker that had begun later, and it does not look at the stored start.  The clock then showed
that start before it shows the end; so the end is later unless the clock has stood still in between
(`System.Proceeds.completed_after_started_iff`), and it does happen that it is not (`System.ended_as_started`).

Where the queue is fed by the loop of the dispatcher alone, no two workers hold the same task.  Whoever had begun to
claim it before has let go of it since, so the stored start is not later than the beginning of whoever completes it
(`Fitting.begun`), and the end is always later.

Key facts: every update of a worker is timely when it is made (`Timetable.fitting_of_does`), and whatever happens, the
moments of all stored tasks stay in order (`Timetable.step`).
-/

namespace Backlog.Interleaving

open Dispatch Simulation Store

variable {x y : System} {p k q i : Nat} {m m' : Memory} {es es' : List Event} {works works' : List Work}
  {job' : Job} {deed : Deed} {r : Request} {o : Stint} {task : Task} {start : Timestamp} {fed : Prop}
  {ends : Int → Option Timestamp → Timestamp → Prop} {a : Author}

/-! ### Work and the start that is stored -/

/-- Some work suits the start that is stored of its task: it has ended after its own beginning, and the clock had shown
the start when it was done.  The start is the beginning of the work, unless its worker has lost an attempt to claim the
task.  It is not later than the beginning if the queue is fed as it should be. -/
structure Work.Suits (fed : Prop) (es : List Event) (w : Work) (start : Timestamp) : Prop where
  lasted : w.began < w.finish
  past : ¬ w.ended < start
  own : start = w.began ∨ LostUpdate w.worker w.task.id (Worker.claim w.task w.began) es
  before : fed → ¬ w.began < start

/-- The end of a task is the end of work that was done on it, and that suits its start. -/
def Accounted (fed : Prop) (works : List Work) (es : List Event) (id : Int) (o : Option Timestamp)
    (finish : Timestamp) : Prop :=
  ∃ start, o = some start ∧ ∃ w ∈ works, w.task.id = id ∧ w.finish = finish ∧ w.Suits fed es start

private theorem Accounted.mono {id : Int} {o : Option Timestamp} (h : Accounted fed works es id o finish)
    (hworks : works ⊆ works') (hes : es ⊆ es') : Accounted fed works' es' id o finish := by
  obtain ⟨start, ho, w, hw, hid, hfinish, hsuits⟩ := h
  exact ⟨start, ho, w, hworks hw, hid, hfinish, hsuits.lasted, hsuits.past,
    hsuits.own.imp_right fun hlost => hlost.mono hes, hsuits.before⟩

/-! ### What is known of the work on a task -/

/-- A worker has begun to claim a task at a moment, and no later start is stored of the task if the queue is fed as it
should be. -/
structure Begun (fed : Prop) (x : System) (m : Memory) (task : Task) (start : Timestamp) : Prop where
  dated : x.store.Dates start
  past : ¬ x.wall < start
  stored : fed → ∀ t s, m.find? task.id = some t → t.startedAt = some s → ¬ start < s

/-- What is known of a task in the stint of a worker, who is the given author. -/
inductive Sound (fed : Prop) (ends : Int → Option Timestamp → Timestamp → Prop) (es : List Event) (a : Author)
    (x : System) (m : Memory) : Stint → Prop where
  | free : Sound fed ends es a x m .free
  | claiming {task : Task} {start : Timestamp} (begun : Begun fed x m task start) :
    Sound fed ends es a x m (.claiming task start)
  | working {task : Task} {start : Timestamp} (begun : Begun fed x m task start)
      (engaged : Engaged m task.id task.version fun o =>
        o = some start ∨ LostUpdate a task.id (Worker.claim task start) es) :
    Sound fed ends es a x m (.working task start)
  | completing {task : Task} {finish : Timestamp} (kept : x.store.timeOf finish = finish)
      (engaged : Engaged m task.id task.version fun o => ends task.id o finish) :
    Sound fed ends es a x m (.completing task finish)

theorem Sound.begun (h : Sound fed ends es a x m o) (hbegun : o.begun? = some (task, start)) :
    Begun fed x m task start := by
  cases h with
  | claiming begun =>
    cases hbegun
    exact begun
  | working begun engaged =>
    cases hbegun
    exact begun
  | _ => cases hbegun

/-- The worker in a seat has begun with a task at a moment. -/
def BegunIn (p : Nat) (x : System) (i : Nat) (task : Task) (start : Timestamp) : Prop :=
  ∃ w, (x.seats p i).job = .worker w ∧ w.stint.begun? = some (task, start)

/-- A request that may reach the store now or at any later time: if it updates a status it is timely, the store keeps
its moments, and it brings no start that is later than that of a worker who has begun with the task, if the queue is fed
as it should be. -/
structure Fitting (fed : Prop) (ends : Int → Option Timestamp → Timestamp → Prop) (p : Nat) (x : System) (m : Memory)
    (r : Request) : Prop where
  timely : ∀ id u, r = .updateStatus id u → Timely (ends id) m x.wall id u ∧ u.adjusted x.store.timeOf = u
  begun : fed → ∀ i task start, BegunIn p x i task start → ∀ u s, r = .updateStatus task.id u →
    u.startedAt = some s → ¬ start < s

private theorem Fitting.of_noStart {id : Int} {u : StatusUpdate} (timely : Timely (ends id) m x.wall id u)
    (kept : u.adjusted x.store.timeOf = u) (noStart : u.startedAt = none) :
    Fitting fed ends p x m (.updateStatus id u) where
  timely := by
    rintro _ _ ⟨⟩
    exact ⟨timely, kept⟩
  begun := by
    rintro - _ task _ - u _ hr hs
    injection hr with hid hu
    rw [← hu, noStart] at hs
    cases hs

private theorem Fitting.of_noUpdate (noUpdate : ∀ id u, r ≠ .updateStatus id u) : Fitting fed ends p x m r where
  timely id u hr := absurd hr (noUpdate id u)
  begun _ _ task _ _ u _ hr _ := absurd hr (noUpdate task.id u)

/-- The moments of all tasks are in order, and whatever may still reach the store keeps them so.  The queue may be fed
by the loop of a dispatcher alone. -/
structure Timetable (fed : Prop) (p k : Nat) (x : System) (m : Memory) (es : List Event) (works : List Work) :
    Prop where
  ledger : Ledger x.store m es
  unshared : fed → Unshared p k x
  workers : ∀ q i w, (x.seats q i).job = .worker w → q = p
  told : ∀ q i id u limit, (x.seats q i).job ≠ .ask (.updateStatus id u) limit
  dated : x.store.Dates x.wall
  rows : ∀ id t, m.find? id = some t → t.Timed (Accounted fed works es id) x.wall
  drifting : ∀ c ∈ x.drifting, Fitting fed (Accounted fed works es) p x m c.2
  seats : ∀ i w, (x.seats p i).job = .worker w →
    Sound fed (Accounted fed works es) es ⟨p, i, (x.seats p i).round⟩ x m w.stint

namespace Timetable

/-- Nobody else has begun with the task of a worker. -/
private theorem eq_of_begunIn (h : Timetable fed p k x m es works) (hfed : fed) {i j : Nat} {w : Worker}
    (hw : (x.seats p i).job = .worker w) (hheld : w.held? = some task.id) {task' : Task} (hid : task'.id = task.id)
    (hj : BegunIn p x j task' start) : j = i := by
  obtain ⟨w', hw', hbegun⟩ := hj
  refine (h.unshared hfed).apart.apart j i task.id ?_ ?_
  · show heldBy (x.seats p j).job = some task.id
    rw [hw', ← hid]
    exact Worker.held?_of_begun? hbegun
  · show heldBy (x.seats p i).job = some task.id
    rw [hw]
    exact hheld

/-- Whatever a worker asks of the store may reach it now or at any later time. -/
private theorem fitting_of_worker (h : Timetable fed p k x m es works) {w : Worker}
    (hw : (x.seats p i).job = .worker w) {id : Int} {u : StatusUpdate} (hupdate : w.stint.update? = some (id, u)) :
    Fitting fed (Accounted fed works es) p x m (.updateStatus id u) := by
  have hsound := h.seats i w hw
  have hheld {task : Task} {start : Timestamp} (hbegun : w.stint.begun? = some (task, start)) :
      w.held? = some task.id := Worker.held?_of_begun? hbegun
  generalize hstint : w.stint = o at hupdate hsound hheld
  cases hsound with
  | @claiming task start begun =>
    cases hupdate
    constructor
    · rintro _ _ ⟨⟩
      refine ⟨.claim begun.past, ?_⟩
      show StatusUpdate.mk _ (some (x.store.timeOf start)) _ _ = _
      rw [begun.dated.2.1]
      rfl
    · -- whoever has begun with the same task is this worker
      intro hfed j task' start' hj u' s hr hs
      injection hr with hid hu
      subst hu
      cases hs
      obtain rfl := h.eq_of_begunIn hfed hw (hheld rfl) hid.symm hj
      obtain ⟨w₁, hw₁, hbegun⟩ := hj
      rw [hw] at hw₁
      cases hw₁
      rw [hstint] at hbegun
      cases hbegun
      exact Timestamp.not_lt_self _
  | @completing task finish kept engaged =>
    cases hupdate
    refine .of_noStart (.completion engaged) ?_ rfl
    show StatusUpdate.mk _ _ (some (x.store.timeOf finish)) _ = _
    rw [kept]
    rfl
  | _ => cases hupdate

/-- Whatever is asked of the store may reach it now or at any later time. -/
private theorem fitting_of_does (h : Timetable fed p k x m es works)
    (does : ((x.seats q i).job.next (x.runtimes q).settings).Does (x.seats q i).job deed job')
    (hdeed : (∃ result, deed = .ask r result) ∨ deed = .drop r) :
    Fitting fed (Accounted fed works es) p x m r := by
  cases r with
  | updateStatus id u =>
    by_cases hworker : ∃ w, (x.seats q i).job = .worker w
    · obtain ⟨w, hw⟩ := hworker
      obtain rfl := h.workers q i w hw
      rw [hw] at does
      obtain ⟨w', hdoes, -⟩ := Step.Does.of_map does
      exact h.fitting_of_worker hw (Worker.update_of_does hdoes hdeed)
    · obtain ⟨t, rfl⟩ := retires_of_does does hdeed (fun w hw => hworker ⟨w, hw⟩) fun limit => h.told q i id u limit
      refine .of_noStart (.retirement ?_) rfl rfl
      unfold Retirement.target
      split <;> exact ⟨by decide, by decide⟩
  | _ => exact .of_noUpdate fun id u hr => by cases hr

end Timetable

/-! ### What becomes of the stored tasks -/

/-- Every task that is stored now is new, or it was stored before and is the same but for its text, or it has been moved
on by a request that fits. -/
def Continued (fed : Prop) (ends : Int → Option Timestamp → Timestamp → Prop) (p : Nat) (x : System) (m m' : Memory) :
    Prop :=
  ∀ id t', m'.find? id = some t' → (∃ now new, t' = (m.create now new).1) ∨
    ∃ t, m.find? id = some t ∧ ((∃ text, t' = { t with text }) ∨
      ∃ u, Fitting fed ends p x m (.updateStatus id u) ∧ u.refusal? t = none ∧ t' = u.applyTo t)

/-- The store is as it was, or a request that fits has reached it. -/
def Heeds (fed : Prop) (ends : Int → Option Timestamp → Timestamp → Prop) (p : Nat) (x : System) (m : Memory)
    (b : Backend) (es : List Event) : Prop :=
  b = x.store ∧ moves es = [] ∨ ∃ a r es₁, Fitting fed ends p x m r ∧ b = (x.store.perform x.wall r).2 ∧
    es = landing x.store x.wall a r ++ es₁ ∧ moves es₁ = []

private theorem Heeds.exists_next {b : Backend} (h : Heeds fed ends p x m b es') (ledger : Ledger x.store m es)
    (few : ∀ id, (moveCount id (es ++ es') : Int) ≤ Sql.mostInteger) :
    ∃ m', Ledger b m' (es ++ es') ∧ Advances x.store m b m' ∧ Continued fed ends p x m m' := by
  rcases h with ⟨rfl, silent⟩ | ⟨a, r, es₁, fitting, rfl, rfl, silent⟩
  · exact ⟨m, ledger.silent silent, .stay, fun id t ht => .inr ⟨t, ht, .inl ⟨t.text, rfl⟩⟩⟩
  · rw [← List.append_assoc] at few ⊢
    obtain ⟨now', r', heard, hafter⟩ := ledger.follows x.wall a r (few_of_append few)
    refine ⟨_, (ledger.perform x.wall a heard hafter).silent silent, .hear x.wall now' heard, fun id t' ht' => ?_⟩
    rcases origin_of_heard ledger.represents ledger.ordered x.wall a heard ht' with
      ⟨-, ⟨new, hnew⟩, -⟩ | ⟨t, ht, ⟨htext, -⟩ | ⟨u, rfl, hu, rfl, -⟩⟩
    · exact .inl ⟨now', new, hnew⟩
    · exact .inr ⟨t, ht, .inl htext⟩
    · refine .inr ⟨t, ht, .inr ⟨u, fitting, hu, ?_⟩⟩
      rw [(fitting.timely id u rfl).2]

private theorem Heeds.timeOf_eq {b : Backend} (h : Heeds fed ends p x m b es) : b.timeOf = x.store.timeOf := by
  rcases h with ⟨rfl, -⟩ | ⟨a, r, es₁, -, rfl, -⟩
  · rfl
  · cases x.store <;> rfl

private theorem Continued.timed (h : Continued fed ends p x m m')
    (rows : ∀ id t, m.find? id = some t → t.Timed (ends id) x.wall) {id : Int} {t' : Task}
    (ht' : m'.find? id = some t') : t'.Timed (ends id) x.wall := by
  rcases h id t' ht' with ⟨now, new, rfl⟩ | ⟨t, ht, ⟨text, rfl⟩ | ⟨u, fitting, hu, rfl⟩⟩
  · exact ⟨fun hs => (by cases hs), fun hs => (by cases hs), fun _ => rfl, fun _ hs => (by cases hs)⟩
  · have htimed := rows id t ht
    exact ⟨htimed.processing, htimed.completed, htimed.unfinished, htimed.started⟩
  · exact (fitting.timely id u rfl).1.applyTo (rows id t ht) ht hu

private theorem timeOf_of_advances {b b' : Backend} (advances : Advances b m b' m') : b'.timeOf = b.timeOf := by
  cases advances with
  | stay => rfl
  | hear wall now' heard => cases b <;> rfl

private theorem dates_congr {b b' : Backend} (same : b'.timeOf = b.timeOf) {t : Timestamp} (h : b.Dates t) :
    b'.Dates t := by
  unfold Backend.Dates
  rwa [same]

/-- A later start is not stored of a task with which a worker has begun. -/
private theorem Begun.next (h : Begun fed x m task start) (inSeat : BegunIn p x i task start)
    (continued : Continued fed ends p x m m') (same : y.store.timeOf = x.store.timeOf) (later : ¬ y.wall < x.wall) :
    Begun fed y m' task start where
  dated := dates_congr same h.dated
  past := Timestamp.not_lt_trans h.past later
  stored hfed t' s ht' hs := by
    rcases continued task.id t' ht' with ⟨now, new, rfl⟩ | ⟨t, ht, ⟨text, rfl⟩ | ⟨u, fitting, -, rfl⟩⟩
    · cases hs
    · exact h.stored hfed t s ht hs
    · cases hstart : u.startedAt with
      | none =>
        refine h.stored hfed t s ht ?_
        rw [← hs]
        show t.startedAt = u.startedAt.or t.startedAt
        rw [hstart]
        rfl
      | some s' =>
        -- a claim took effect, maybe that of an earlier worker: it fits, so its moment is not later
        have hsame : some s' = some s := by
          rw [← hs]
          show some s' = u.startedAt.or t.startedAt
          rw [hstart]
          rfl
        cases hsame
        exact fitting.begun hfed i task start inSeat u _ rfl hstart

private theorem Sound.next {ends' : Int → Option Timestamp → Timestamp → Prop} (h : Sound fed ends es a x m o)
    (hm : m.Ordered) (advances : Advances x.store m y.store m') (hes : es ⊆ es')
    (imp : ∀ id o finish, ends id o finish → ends' id o finish)
    (begun : ∀ task start, o.begun? = some (task, start) → Begun fed y m' task start) :
    Sound fed ends' es' a y m' o := by
  cases h with
  | free => exact .free
  | claiming _ => exact .claiming (begun _ _ rfl)
  | working _ engaged =>
    refine .working (begun _ _ rfl) ((engaged.advances hm advances).imp fun o ho => ?_)
    exact ho.imp_right fun hlost => hlost.mono hes
  | completing kept engaged =>
    refine .completing ?_ ((engaged.advances hm advances).imp fun o => imp _ o _)
    rwa [timeOf_of_advances advances]

/-- A request that fits goes on to do so, as long as whoever begins with a task does it now. -/
private theorem Fitting.next {ends' : Int → Option Timestamp → Timestamp → Prop} (h : Fitting fed ends p x m r)
    (hm : m.Ordered) (advances : Advances x.store m y.store m') (later : ¬ y.wall < x.wall)
    (imp : ∀ id o finish, ends id o finish → ends' id o finish)
    (begun : ∀ i task start, BegunIn p y i task start → BegunIn p x i task start ∨ start = x.wall) :
    Fitting fed ends' p y m' r where
  timely id u hr := by
    obtain ⟨htimely, hkept⟩ := h.timely id u hr
    rw [timeOf_of_advances advances]
    exact ⟨htimely.advances hm advances (imp id) later, hkept⟩
  begun hfed i task start hin u s hr hs := by
    rcases begun i task start hin with hold | rfl
    · exact h.begun hfed i task start hold u s hr hs
    · -- the moment of whoever begins now is not before that of any claim made so far
      obtain ⟨htimely, -⟩ := h.timely task.id u hr
      cases htimely with
      | claim past =>
        cases hs
        exact past
      | _ => cases hs

/-! ### What a worker comes to know -/

private theorem engaged_of_looksApplied {kind : Option Timestamp → Prop} (ledger : Ledger x.store m es) {t : Task}
    (looks : Transition.looksApplied (Worker.claim task start) t = true)
    (hfound : (x.store.perform x.wall (.getFresh task.id)).1 = .ok (some t)) (hkind : ∀ o, kind o) :
    Engaged m task.id task.version kind := by
  obtain ⟨t', ht', rfl⟩ := ledger.exists_of_getFresh hfound
  obtain ⟨hstatus, hversion⟩ := of_decide_eq_true looks
  rw [Backend.shows_status] at hstatus
  rw [Backend.shows_version] at hversion
  exact engaged_of_find? ledger.ordered ht' hstatus hversion (hkind _)

/-- A task whose claim was acknowledged is in processing since the moment of the claim. -/
private theorem find?_of_ok {b : Backend} (ledger : Ledger x.store m es) (a : Author)
    (few : ∀ id, (moveCount id (es ++ landing x.store x.wall a (.updateStatus task.id (Worker.claim task start))) : Int)
      ≤ Sql.mostInteger) (kept : x.store.timeOf start = start)
    (hok : (x.store.perform x.wall (.updateStatus task.id (Worker.claim task start))).1 = .ok ())
    (hb : b = (x.store.perform x.wall (.updateStatus task.id (Worker.claim task start))).2) (hafter : Ledger b m' es') :
    ∃ t, m'.find? task.id = some t ∧ t.status = .processing ∧ t.version = task.version + 1 ∧
      t.startedAt = some start := by
  obtain ⟨t, ht, hu⟩ := (ledger.represents.updateStatus_ok_iff ledger.ordered x.wall task.id _).1 hok
  obtain ⟨hexpected, -⟩ := StatusUpdate.refusal?_eq_none_iff.1 hu
  obtain ⟨now', r', heard, hstands⟩ := ledger.follows x.wall a _ few
  have hadjusted : ((Worker.claim task start).adjusted x.store.timeOf).refusal? t = none := hu
  rw [heard.eq_of_updateStatus, ← hb] at hstands
  -- what stands for the store shows the same task, whichever store in memory that is
  have hsame := (hafter.represents.get x.wall task.id).symm.trans (hstands.get x.wall task.id)
  rw [Memory.find?_updateStatus ht hadjusted] at hsame
  obtain ⟨t', ht', hshows⟩ : ∃ t', m'.find? task.id = some t' ∧
      b.shows t' = b.shows (((Worker.claim task start).adjusted x.store.timeOf).applyTo t) := by
    injection hsame with houtcome
    injection houtcome with hanswer
    injection hanswer with hfound
    exact Option.map_eq_some_iff.1 hfound
  have hstatus := congrArg Task.status hshows
  have hversion := congrArg Task.version hshows
  have hstart := congrArg Task.startedAt hshows
  rw [Backend.shows_status, Backend.shows_status] at hstatus
  rw [Backend.shows_version, Backend.shows_version, StatusUpdate.applyTo_version,
    hexpected task.version rfl] at hversion
  rw [Backend.shows_startedAt, Backend.shows_startedAt] at hstart
  refine ⟨t', ht', hstatus, hversion, hstart.trans ?_⟩
  show some (x.store.timeOf start) = some start
  rw [kept]

/-- Work that is done suits any start that is stored while the task is engaged. -/
private theorem Timetable.engaged_finish (h : Timetable fed p k x m es works) (begun : Begun fed x m task start)
    (engaged : Engaged m task.id task.version fun o =>
      o = some start ∨ LostUpdate a task.id (Worker.claim task start) es)
    (done : ⟨a, task, start, x.wall⟩ ∈ works') (hes : es ⊆ es') :
    Engaged m task.id task.version fun o =>
      Accounted fed works' es' task.id o (Worker.finishOf start x.wall) := by
  refine ⟨engaged.1, fun t ht hversion => ?_⟩
  obtain ⟨hstatus, hkind⟩ := engaged.2 t ht hversion
  have htimed := h.rows task.id t ht
  obtain ⟨s, hs⟩ := htimed.processing hstatus
  refine ⟨hstatus, s, hs, _, done, rfl, rfl, (begun.dated.finishOf h.dated).1, htimed.started s hs, ?_,
    fun hfed => begun.stored hfed t s ht hs⟩
  rcases hkind with hown | hlost
  · exact .inl (Option.some.inj (hs.symm.trans hown))
  · exact .inr (hlost.mono hes)

private theorem Timetable.turn (h : Timetable fed p k x m es works) (earned : Earned x es) {c : Choice} {w w' : Worker}
    (turned : Turned x y p i c es' w deed w') (few : ∀ id, (moveCount id (es ++ es') : Int) ≤ Sql.mostInteger)
    {es'' : List Event} (hafter : Ledger y.store m' es'') (advances : Advances x.store m y.store m')
    (continued : Continued fed (Accounted fed works es) p x m m') :
    Sound fed (Accounted fed (works ++ x.workDone c) (es ++ es')) (es ++ es') ⟨p, i, (y.seats p i).round⟩ y m'
      w'.stint := by
  have hw := turned.job
  have hsound := h.seats i w hw
  have same := timeOf_of_advances advances
  have later : ¬ y.wall < x.wall := by
    rw [turned.wall]
    exact Timestamp.not_lt_self _
  have inSeat {task : Task} {start : Timestamp} (hbegun : w.stint.begun? = some (task, start)) :
      Begun fed y m' task start := (hsound.begun hbegun).next ⟨w, hw, hbegun⟩ continued same later
  have hround := turned.round
  have hes : es ⊆ es ++ es' := List.subset_append_left _ _
  obtain ⟨z, es₁, stored, store, hcount⟩ := turned.stored
  have turns := Worker.turns_of_does turned.does
  generalize hstint : w.stint = o at turns hsound inSeat
  generalize hstint' : w'.stint = o' at turns
  cases turns with
  | begin now =>
    obtain rfl := turned.seen now rfl
    refine .claiming ⟨dates_congr same h.dated, later, fun _ t s ht hs => ?_⟩
    exact (continued.timed h.rows ht).started s hs
  | @claim task start =>
    refine .working (inSeat rfl) ?_
    cases stored with
    | answered answer store' drifting =>
      have hfew (id : Int) : (moveCount id ((es ++ landing x.store x.wall ⟨p, i, (x.seats p i).round⟩
          (.updateStatus task.id (Worker.claim task start))) ++ System.attempt ⟨p, i, (x.seats p i).round⟩
            (.updateStatus task.id (Worker.claim task start)) (.ok ())) : Int) ≤ Sql.mostInteger := by
        rw [List.append_assoc, moveCount_append, ← hcount id, ← moveCount_append]
        exact few id
      obtain ⟨t, ht, hstatus, hversion, hstart⟩ := find?_of_ok h.ledger _ (few_of_append hfew)
        (hsound.begun rfl).dated.2.1 answer (store.trans store') hafter
      exact engaged_of_find? hafter.ordered ht hstatus hversion (.inl hstart)
    | aside noCall => cases noCall
  | @find task t start looks =>
    refine .working (inSeat rfl) ?_
    obtain ⟨e, rfl⟩ := Worker.confirming_of_does turned.does hstint
    -- whoever looks whether its claim was made has lost an attempt to make it
    have hlost : LostUpdate ⟨p, i, (y.seats p i).round⟩ task.id (Worker.claim task start) es := by
      rw [hround]
      exact earned.tried p i ⟨task.id, Worker.claim task start, .confirming e⟩ (by rw [hw]; rfl) rfl
    cases stored with
    | answered answer store' drifting =>
      refine (engaged_of_looksApplied h.ledger looks answer fun o => ?_).advances h.ledger.ordered advances
      exact .inr (hlost.mono hes)
    | aside noCall => cases noCall
  | @finish task start now =>
    obtain rfl := turned.seen now rfl
    have hfinishing := Worker.finishing_of_does turned.does hstint
    obtain ⟨how, rfl⟩ := turned.acts
    have hdone : ⟨⟨p, i, (x.seats p i).round⟩, task, start, x.wall⟩ ∈ works ++ x.workDone (.act p i how) := by
      refine List.mem_append_right _ ?_
      unfold System.workDone
      dsimp only
      rw [hw, hfinishing]
      exact List.mem_singleton_self _
    cases hsound with
    | working begun engaged =>
      refine .completing ?_ ((h.engaged_finish begun engaged hdone hes).advances h.ledger.ordered advances)
      rw [same]
      exact (begun.dated.finishOf h.dated).2
  | stay o noTake =>
    have hauthor : (y.seats p i).round = (x.seats p i).round := by
      rw [hround, noTake]
      rfl
    rw [hauthor]
    exact hsound.next h.ledger.ordered advances hes
      (fun id o finish hends => hends.mono (List.subset_append_left _ _) hes) fun task start hbegun => inSeat hbegun
  | leave o => exact .free

/-! ### Runs -/

namespace Timetable

/-- Whatever happens, the store is as it was, or a request that fits has reached it. -/
private theorem heeds (h : Timetable fed p k x m es works) {c : Choice} (hstep : x.step c = some (y, es')) :
    Heeds fed (Accounted fed works es) p x m y.store es' := by
  cases System.occurs_of_step hstep with
  | @acted q i how deed s' z es₁ does did =>
    have hcredits := moves_credits ⟨q, i, s'.round⟩ (credit? s'.job)
    have aside (store : z.store = x.store) (silent : moves es₁ = []) :
        Heeds fed (Accounted fed works es) p x m z.store
          (es₁ ++ (credit? s'.job).toList.map fun c => .credited ⟨q, i, s'.round⟩ c.1 c.2) := by
      refine .inl ⟨store, ?_⟩
      rw [moves_append, silent, hcredits]
      rfl
    cases did.stored with
    | @answered r result _ answer store drifting =>
      refine .inr ⟨_, r, _, h.fitting_of_does does (.inl ⟨_, rfl⟩), store, List.append_assoc _ _ _, ?_⟩
      rw [moves_append, moves_attempt, hcredits]
      rfl
    | failed passing store drifting => exact aside store (moves_attempt _ _ _)
    | refused superseded store drifting => exact aside store (moves_attempt _ _ _)
    | dropped store drifting => exact aside store rfl
    | aside noCall store drifting => exact aside store rfl
  | landed drifts =>
    exact .inr ⟨_, _, [], h.drifting _ (List.mem_of_getElem? drifts), rfl, (List.append_nil _).symm, rfl⟩
  | _ => exact .inl ⟨rfl, rfl⟩

private theorem fitting_of_drifting (h : Timetable fed p k x m es works) {c : Choice}
    (hstep : x.step c = some (y, es')) {e : Author × Request} (he : e ∈ y.drifting) :
    Fitting fed (Accounted fed works es) p x m e.2 := by
  cases System.occurs_of_step hstep with
  | @acted q i how deed s' z es₁ does did =>
    rcases did.stored.of_drifting he with hin | ⟨-, ⟨e', hask⟩ | hdrop⟩
    · exact h.drifting e hin
    · exact h.fitting_of_does does (.inl ⟨_, hask⟩)
    · exact h.fitting_of_does does (.inr hdrop)
  | landed drifts => exact h.drifting e (List.mem_of_mem_eraseIdx he)
  | _ => exact h.drifting e he

private theorem begunIn_cases {c : Choice} (hstep : x.step c = some (y, es')) (hin : BegunIn p y i task start) :
    BegunIn p x i task start ∨ start = x.wall := by
  obtain ⟨w', hw', hbegun⟩ := hin
  rcases System.worker_cases hstep hw' with hsame | rfl | ⟨w, deed, turned⟩
  · exact .inl ⟨w', hsame ▸ hw', hbegun⟩
  · cases hbegun
  · rcases (Worker.turns_of_does turned.does).begun hbegun with hbefore | hread
    · exact .inl ⟨w, turned.job, hbefore⟩
    · exact .inr (turned.seen start hread)

/-- Whatever happens, the moments of all tasks stay in order. -/
theorem step (h : Timetable fed p k x m es works) (earned : Earned x es) {c : Choice} (ok : inOneRuntime p c)
    (feeds : fed → fedBySeat p k c) (clock : ∀ wall, c = .setWall wall → ¬ wall < x.wall ∧ x.store.Dates wall)
    (hstep : x.step c = some (y, es')) (few : ∀ id, (moveCount id (es ++ es') : Int) ≤ Sql.mostInteger) :
    ∃ m', Timetable fed p k y m' (es ++ es') (works ++ x.workDone c) := by
  obtain ⟨m', hledger, advances, continued⟩ := (h.heeds hstep).exists_next h.ledger few
  have same := timeOf_of_advances advances
  have hmono (id : Int) (o : Option Timestamp) (finish : Timestamp) (hends : Accounted fed works es id o finish) :
      Accounted fed (works ++ x.workDone c) (es ++ es') id o finish :=
    hends.mono (List.subset_append_left _ _) (List.subset_append_left _ _)
  have hwall : ¬ y.wall < x.wall ∧ x.store.Dates y.wall := by
    rw [System.wall_of_step hstep]
    cases c with
    | setWall wall => exact clock wall rfl
    | _ => exact ⟨Timestamp.not_lt_self _, h.dated⟩
  obtain ⟨later, dated⟩ := hwall
  obtain ⟨workers, told⟩ := System.confined_of_step ok hstep h.workers h.told
  refine ⟨m', hledger, fun hfed => (h.unshared hfed).step (feeds hfed) hstep, workers, told, dates_congr same dated,
    fun id t ht => (continued.timed h.rows ht).later (hmono id) later, fun e he => ?_, fun i w' hw' => ?_⟩
  · exact (h.fitting_of_drifting hstep he).next h.ledger.ordered advances later hmono fun i task start hin =>
      begunIn_cases hstep hin
  · rcases System.worker_cases hstep hw' with hsame | rfl | ⟨w, deed, turned⟩
    · rw [hsame] at hw' ⊢
      have hsound := h.seats i w' hw'
      exact hsound.next h.ledger.ordered advances (List.subset_append_left _ _) hmono fun task start hbegun =>
        (hsound.begun hbegun).next ⟨w', hw', hbegun⟩ continued same later
    · exact .free
    · exact h.turn earned turned few hledger advances continued

end Timetable

private theorem timetable_start {b : Backend} {wall : Timestamp} {settings : Nat → Settings}
    (hb : b = .memory .empty ∨ b = .table .fresh) (dated : b.Dates wall) (fed : Prop) (p k : Nat) :
    Timetable fed p k (.start b wall settings) .empty [] [] where
  ledger := ledger_start hb
  unshared _ := unshared_start b wall settings p k
  workers q i w hw := by cases hw
  told q i id u limit hask := by cases hask
  dated := dated
  rows id t ht := by cases ht
  drifting c hc := by cases hc
  seats i w hw := by cases hw

private theorem timetable_of_proceeds {b : Backend} {wall : Timestamp} {settings : Nat → Settings}
    {allowed : Choice → Prop} (hb : b = .memory .empty ∨ b = .table .fresh) (dated : b.Dates wall)
    (one : ∀ c, allowed c → inOneRuntime p c) (feeds : fed → ∀ c, allowed c → fedBySeat p k c)
    (h : System.Proceeds allowed b.Dates (.start b wall settings) x es works)
    (few : ∀ id, (moveCount id es : Int) ≤ Sql.mostInteger) :
    (∃ m, Timetable fed p k x m es works) ∧ x.store.timeOf = b.timeOf := by
  induction h with
  | start => exact ⟨⟨_, timetable_start hb dated fed p k⟩, rfl⟩
  | @step x y es es' works c hproceeds ok clock hstep ih =>
    have hfew := few_of_append few
    obtain ⟨⟨m, hbefore⟩, hkept⟩ := ih hfew
    have hclock (wall : Timestamp) (hc : c = .setWall wall) : ¬ wall < x.wall ∧ x.store.Dates wall := by
      obtain ⟨hnot, hdates⟩ := clock wall hc
      exact ⟨hnot, dates_congr hkept hdates⟩
    have hearned := earned_of_reaches hb hproceeds.reaches hfew
    exact ⟨hbefore.step hearned (one c ok) (fun hfed => feeds hfed c ok) hclock hstep few,
      (hbefore.heeds hstep).timeOf_eq.trans hkept⟩

/-- The moments of a task that is listed as completed are those of some work on it, and no other task has an end. -/
private theorem Timetable.listed (h : Timetable fed p k x m es works) {ts : List Task}
    (hts : (x.store.perform x.wall .list).1 = .ok ts) {t : Task} (ht : t ∈ ts) :
    (t.status ≠ .completed → t.endedAt = none) ∧
      (t.status = .completed → ∃ start, t.startedAt = some start ∧ ∃ w ∈ works, w.task.id = t.id ∧
        t.endedAt = some w.finish ∧ w.Suits fed es start) := by
  rw [h.ledger.represents.list] at hts
  cases hts
  obtain ⟨t, hstored, rfl⟩ := List.mem_map.1 ht
  have htimed := h.rows t.id t (h.ledger.ordered.find?_of_mem hstored)
  rw [Backend.shows_status, Backend.shows_startedAt, Backend.shows_endedAt, Backend.shows_id]
  refine ⟨htimed.unfinished, fun hstatus => ?_⟩
  obtain ⟨finish, hfinish, start, hstart, w, hw, hid, rfl, hsuits⟩ := htimed.completed hstatus
  exact ⟨start, hstart, w, hw, hid, hfinish, hsuits⟩

/-- **Main theorem.**  Any number of runtimes and other callers share a store of either kind, but only the workers of
one runtime claim and complete tasks.  Calls may fail with and without effect and take effect at any later time, tasks
may be put into the queue by anybody and as often as they like, and they may be taken back, given up and deleted; the
wall clock may stand still, but it does not go back, and it shows moments which the store keeps.  No task has moved more
often than 64 bits can count.

Whatever has happened in whatever order, all tasks can be listed, and a task that is not completed has no end.  Every
completed task has a start and an end, which is not before the start and which is the end of some work on this task,
later than its beginning.  The clock had shown the stored start when that work was done, and this start is the
beginning of the work unless its worker has lost an attempt to claim the task.  The end fails to be later than the start
exactly if the clock has not gone on since it showed the start, and the worker had begun a microsecond before at least.
That is never so if the queue is fed by the loop of the dispatcher alone. -/
theorem System.Proceeds.completed_after_started_iff {b : Backend} {wall : Timestamp} {settings : Nat → Settings}
    {allowed : Choice → Prop} (hb : b = .memory .empty ∨ b = .table .fresh) (dated : b.Dates wall)
    (one : ∀ c, allowed c → inOneRuntime p c)
    (h : System.Proceeds allowed b.Dates (.start b wall settings) x es works)
    (few : ∀ id, (moveCount id es : Int) ≤ Sql.mostInteger) :
    ∃ ts, (x.store.perform x.wall .list).1 = .ok ts ∧ ∀ t ∈ ts, (t.status ≠ .completed → t.endedAt = none) ∧
      (t.status = .completed → ∃ start finish, t.startedAt = some start ∧ t.endedAt = some finish ∧
        ¬ finish < start ∧
        (∃ w ∈ works, w.task.id = t.id ∧ w.finish = finish ∧ w.began < finish ∧ ¬ w.ended < start ∧
          (start = w.began ∨ LostUpdate w.worker t.id (Worker.claim w.task w.began) es) ∧
          (¬ start < finish ↔ start = w.ended ∧ ¬ start < w.began.addMicro)) ∧
        ((∃ k, ∀ c, allowed c → fedBySeat p k c) → start < finish)) := by
  obtain ⟨m, htimetable⟩ : ∃ m, Timetable False p 0 x m es works :=
    (timetable_of_proceeds hb dated one (fun hfed => hfed.elim) h few).1
  have hlist := congrArg Prod.fst (htimetable.ledger.represents.list x.wall)
  refine ⟨_, hlist, fun t ht => ?_⟩
  obtain ⟨hopen, hwork⟩ := htimetable.listed hlist ht
  refine ⟨hopen, fun hstatus => ?_⟩
  obtain ⟨start, hstart, w, hw, hid, hfinish, hsuits⟩ := hwork hstatus
  refine ⟨start, w.finish, hstart, hfinish, fun hlt => ?_, ⟨w, hw, hid, rfl, hsuits.lasted, hsuits.past,
    hid ▸ hsuits.own, Worker.not_lt_finishOf_iff hsuits.past⟩, ?_⟩
  · exact Timestamp.not_latest_lt _ _ (Timestamp.lt_of_lt_of_not_lt hlt hsuits.past)
  · rintro ⟨k, hfeeds⟩
    obtain ⟨m', hfed⟩ : ∃ m, Timetable True p k x m es works :=
      (timetable_of_proceeds hb dated one (fun _ => hfeeds) h few).1
    obtain ⟨start', hstart', w', -, -, hfinish', hsuits'⟩ := (hfed.listed hlist ht).2 hstatus
    obtain rfl : start' = start := Option.some.inj (hstart'.symm.trans hstart)
    have hsame : w'.finish = w.finish := Option.some.inj (hfinish'.symm.trans hfinish)
    rw [← hsame]
    exact Timestamp.lt_of_not_lt_of_lt (hsuits'.before trivial) hsuits'.lasted

/-- A dispatcher hands a task to a worker, whose claim is made although its answer is lost, and who completes the task
while the wall clock stands still. -/
def instantWork : List Choice :=
  [[.spawn 1 0 (.ask (.create ⟨"text", "user"⟩) none), .act 1 0 .go, .spawn 0 0 (.dispatcher .starting), .act 0 0 .go,
    .act 0 0 (.at .zero), .act 0 0 (.at .zero)], List.replicate 8 (.act 0 0 .go),
    [.spawn 0 1 (.worker .idle)], List.replicate 3 (.act 0 1 .go),
    [.act 0 1 (.fail (.unavailable "down")), .land 0], List.replicate 5 (.act 0 1 .go),
    [.act 0 1 (.draw 1000)], List.replicate 3 (.act 0 1 .go)].flatten

/-- Work that takes no time by the wall clock has ended after it has begun all the same, where the queue is fed by the
loop of the dispatcher. -/
theorem System.completed_after_started_of_instantWork : ∃ x es works ts,
    System.Proceeds (fun c => inOneRuntime 0 c ∧ fedBySeat 0 0 c) (Backend.Dates (.memory .empty))
      (.start (.memory .empty) default fun _ => .standard) x es works ∧
      (x.store.perform x.wall .list).1 = .ok ts ∧ ∃ t ∈ ts, t.status = .completed ∧
        ∃ start finish, t.startedAt = some start ∧ t.endedAt = some finish ∧ start < finish := by
  have allowed : ∀ c ∈ instantWork, inOneRuntime 0 c ∧ fedBySeat 0 0 c := by
    simp [instantWork, inOneRuntime, fedBySeat, feeds]
  have dated : Backend.Dates (.memory .empty) default := Backend.dates_memory .empty (by decide)
  have hstart : System.Proceeds (fun c => inOneRuntime 0 c ∧ fedBySeat 0 0 c) (Backend.Dates (.memory .empty))
      (.start (.memory .empty) default fun _ => .standard) _ [] [] := .start
  obtain ⟨works, proceeds⟩ := hstart.exists_run allowed (List.pairwise_singleton _ _) (fun _ h => by cases h) rfl
  obtain ⟨ts, hts, hall⟩ := proceeds.completed_after_started_iff (.inl rfl) dated (fun c hc => hc.1) fun id =>
    Int.le_trans (Int.ofNat_le.2 (moveCount_le id _)) (show (2 : Int) ≤ Sql.mostInteger by decide)
  cases hts
  obtain ⟨start, finish, hs, hf, -, -, hlt⟩ := (hall _ (List.mem_singleton_self _)).2 rfl
  exact ⟨_, _, works, _, proceeds, rfl, _, List.mem_singleton_self _, rfl, start, finish, hs, hf,
    hlt ⟨0, fun c hc => hc.2⟩⟩

/-- A task is put into the queue twice.  A worker begins with it, and its claim is lost.  Later, another worker of the
runtime begins and claims the task.  The first one takes this claim for its own, and completes the task while the wall
clock still shows the same moment. -/
def overtakenWork (later : Timestamp) : List Choice :=
  [[.spawn 0 0 (.ask (.create ⟨"text", "user"⟩) none), .act 0 0 .go,
    .spawn 0 1 (.enqueue false (Memory.empty.create default ⟨"text", "user"⟩).1 .tracking)],
    List.replicate 3 (.act 0 1 .go),
    [.spawn 0 2 (.enqueue false (Memory.empty.create default ⟨"text", "user"⟩).1 .tracking)],
    List.replicate 3 (.act 0 2 .go), [.spawn 0 3 (.worker .idle)], List.replicate 3 (.act 0 3 .go),
    [.act 0 3 (.fail (.unavailable "down")), .setWall later, .spawn 0 4 (.worker .idle)],
    List.replicate 4 (.act 0 4 .go), List.replicate 5 (.act 0 3 .go), [.act 0 3 (.draw 1000)],
    List.replicate 3 (.act 0 3 .go)].flatten

/-- A task that has come to two workers of the only runtime has ended at the very moment at which it has begun. -/
theorem System.ended_as_started : ∃ x es works ts moment,
    System.Proceeds (inOneRuntime 0) (Backend.Dates (.memory .empty))
      (.start (.memory .empty) default fun _ => .standard) x es works ∧
      (x.store.perform x.wall .list).1 = .ok ts ∧ ∃ t ∈ ts, t.status = .completed ∧
        t.startedAt = some moment ∧ t.endedAt = some moment := by
  have allowed : ∀ c ∈ overtakenWork ⟨10, 0, by decide, by decide, by decide⟩, inOneRuntime 0 c := by
    simp [overtakenWork, inOneRuntime]
  have hstart : System.Proceeds (inOneRuntime 0) (Backend.Dates (.memory .empty))
      (.start (.memory .empty) default fun _ => .standard) _ [] [] := .start
  obtain ⟨works, proceeds⟩ := hstart.exists_run allowed
    (List.pairwise_pair.2 (by decide)) (List.forall_mem_singleton.2 (Backend.dates_memory .empty (by decide))) rfl
  exact ⟨_, _, works, _, _, proceeds, rfl, _, List.mem_singleton_self _, rfl, rfl, rfl⟩

end Backlog.Interleaving

import Backlog.Proofs.Dispatch.Crew
import Backlog.Proofs.Dispatch.Outlook
import Backlog.Proofs.Dispatch.Reclaiming
import Backlog.Proofs.Interleaving.Budget
import Backlog.Proofs.Interleaving.Deeds

/-!
# What the queue tracks is left alone

The queue of a runtime is fed by the loop of its dispatcher alone.  The loop retires a task that the queue did not track
when it was asked, by an update that expects the version at which the task was listed.  The update may drift on for as
long as it likes, and the queue may come to track the task meanwhile; but it comes to do so only for a task that was
listed as waiting and with attempts left, which the listed version was not.

Key facts: a task that the queue tracks has left behind every version that a drifting update of the dispatcher expects
(`Governed.tracked`), and so have the waiting tasks that the dispatcher may still hand over (`Governed.ahead`).  So an
update of the dispatcher never takes effect on a task that its queue tracks (`System.Reaches.tracked_left_alone`).
-/

namespace Backlog.Interleaving

open Dispatch Simulation Store

/-! ### Who feeds a queue -/

/-- Whether a job may put tasks into the queue. -/
def feeds : Job → Bool
  | .dispatcher _ => true
  | .poll _ => true
  | .enqueue _ _ _ => true
  | _ => false

/-- The loop of the dispatcher in one seat of a runtime is the only job there that may put tasks into the queue. -/
def fedBySeat (p k : Nat) : Choice → Prop
  | .spawn q i job => q = p → if i = k then job = .dispatcher .starting else feeds job = false
  | _ => True

/-- What a job has before it that is the loop of a dispatcher. -/
def outlook : Job → Outlook
  | .dispatcher d => d.outlook
  | _ => .idle

variable {b b' : Backend} {m m' : Memory} {s : Settings} {deed : Deed}

/-- A job that does not feed the queue does not come to, and it makes the queue track nothing. -/
theorem not_feeds_of_does {job job' : Job} (h : (job.next s).Does job deed job') (feeding : feeds job = false) :
    feeds job' = false ∧ ∀ now task, deed ≠ .track now task := by
  cases job with
  | dispatcher d => cases feeding
  | poll poll => cases feeding
  | enqueue interruptible task stage => cases feeding
  | worker w =>
    obtain ⟨w', hdoes, rfl⟩ := Step.Does.of_map h
    refine ⟨rfl, ?_⟩
    rintro now task rfl
    have hholds := Worker.holds_of_does hdoes
    generalize w.held? = held, w'.held? = held' at hholds
    cases hholds with
    | aside haside => cases haside
  | reclaim pass =>
    obtain ⟨pass', hdoes, rfl⟩ := Step.Does.of_map h
    refine ⟨rfl, ?_⟩
    rintro now task rfl
    cases Reclaim.isAside_of_does hdoes
  | ask r limit =>
    cases h with
    | ask result => exact ⟨rfl, fun _ _ hd => by cases hd⟩
    | drop hy => cases hy
  | receive =>
    cases h with
    | queueUp => exact ⟨rfl, fun _ _ hd => by cases hd⟩
    | take task => exact ⟨rfl, fun _ _ hd => by cases hd⟩
    | turnAway hy => cases hy
  | pause span =>
    cases h with
    | rest => exact ⟨rfl, fun _ _ hd => by cases hd⟩
    | rouse hy => cases hy
  | ended reply => cases h

/-! ### Updates that drift -/

/-- An update of a status that drifts from a seat and expects a version of a task. -/
def Drifts (x : System) (p k : Nat) (id version : Int) : Prop :=
  ∃ c ∈ x.drifting, c.1.runtime = p ∧ c.1.seat = k ∧ ∃ u, c.2 = .updateStatus id u ∧ u.expectedVersion = some version

/-- A task has left behind every version that an update from a seat expects. -/
def Outrun (x : System) (m : Memory) (p k : Nat) (id : Int) : Prop :=
  ∀ version, Drifts x p k id version → m.Passed id version

/-- An update that drifts from a dispatcher retires a task for what was seen of it. -/
def Belated (s : Settings) (b : Backend) (m : Memory) : Request → Prop
  | .updateStatus id u => ∃ t, Copied b m t ∧ t.id = id ∧ u.expectedVersion = some t.version ∧
      (t.status = .processing ∨ s.maxAttempts ≤ t.attempts)
  | _ => True

theorem Copied.advances {t : Task} (h : Copied b m t) (hm : m.Ordered) (advances : Advances b m b' m') :
    Copied b' m' t := by
  cases advances with
  | stay => exact h
  | hear wall now' heard => exact h.perform hm

theorem Advances.passed (advances : Advances b m b' m') (hm : m.Ordered) {id version : Int} (h : m.Passed id version) :
    m'.Passed id version := by
  cases advances with
  | stay => exact h
  | hear wall now' heard => exact h.perform hm now' _

theorem Belated.advances {r : Request} (h : Belated s b m r) (hm : m.Ordered) (advances : Advances b m b' m') :
    Belated s b' m' r := by
  cases r with
  | updateStatus id u =>
    obtain ⟨t, hcopied, ht⟩ := h
    exact ⟨t, hcopied.advances hm advances, ht⟩
  | _ => trivial

/-- A task that a store shows as waiting with attempts left is past the version of every copy that is due to be
retired. -/
theorem Copied.passed {t₀ t : Task} (h : Copied b m t₀) (due : t₀.status = .processing ∨ s.maxAttempts ≤ t₀.attempts)
    {id : Int} (hid : t₀.id = id) (ht : m.find? id = some t) (waits : t.status = .pending)
    (fresh : (b.shows t).attempts < s.maxAttempts) : m.Passed id t₀.version := by
  obtain ⟨t', rfl, hle, honward⟩ := h
  rw [Backend.shows_id] at hid
  subst hid
  refine ⟨hle, fun t'' ht'' => ?_⟩
  rw [ht] at ht''
  cases ht''
  rw [Backend.shows_version]
  rcases honward t ht with hlt | hsame
  · exact hlt
  · -- the same version would be the same task
    rw [Backend.shows_status] at due
    have hstatus : t.status = t'.status := by rw [hsame]
    have hattempts : (b.shows t).attempts = (b.shows t').attempts := by rw [hsame, Backend.shows_text]
    rcases due with hprocessing | hused
    · rw [← hstatus, waits] at hprocessing
      cases hprocessing
    · omega

theorem Advances.ordered (advances : Advances b m b' m') (hm : m.Ordered) : m'.Ordered := by
  cases advances with
  | stay => exact hm
  | hear wall now' heard => exact hm.perform now' _

/-! ### What is known of a dispatcher and its queue -/

variable {x y : System} {p k : Nat} {o o' : Outlook}

/-- What is known of a dispatcher in a seat, of what drifts from there and of its queue. -/
structure Governed (p k : Nat) (x : System) (m : Memory) (o : Outlook) : Prop where
  ordered : m.Ordered
  belated : ∀ c ∈ x.drifting, c.1.runtime = p → c.1.seat = k → Belated (x.runtimes p).settings x.store m c.2
  tracked : ∀ id, (x.runtimes p).queue.contains id = true → Outrun x m p k id
  ascending : Ascending o.ahead
  copied : ∀ t ∈ o.ahead, Copied x.store m t ∧ t.status = o.status
  ahead : ∀ t ∈ o.ahead, t.status = .pending → t.attempts < (x.runtimes p).settings.maxAttempts → Outrun x m p k t.id
  retire : o.plan = .retire → ∀ t ∈ o.ahead.head?, (x.runtimes p).queue.contains t.id = false ∧
    (t.status = .processing ∨ (x.runtimes p).settings.maxAttempts ≤ t.attempts)
  track : o.plan = .track → ∀ t ∈ o.ahead.head?, t.status = .pending ∧
    t.attempts < (x.runtimes p).settings.maxAttempts

namespace Governed

/-- All of it stays true as long as the queue comes to track only what is safe, and only retirements of tasks that are
neither tracked nor left begin to drift from the seat. -/
theorem move (h : Governed p k x m o) (advances : Advances x.store m y.store m')
    (settings : (y.runtimes p).settings = (x.runtimes p).settings)
    (queue : ∀ id, (y.runtimes p).queue.contains id = true →
      (x.runtimes p).queue.contains id = true ∨ o.plan = .undecided ∧ Outrun x m p k id)
    (drifting : ∀ c ∈ y.drifting, c.1.runtime = p → c.1.seat = k → c ∈ x.drifting ∨
      Belated (x.runtimes p).settings x.store m c.2 ∧ ∀ id u, c.2 = .updateStatus id u →
        (y.runtimes p).queue.contains id = false ∧ ∀ t ∈ o.ahead, t.id ≠ id) : Governed p k y m' o := by
  have hm := h.ordered
  have outrun (id : Int) (hold : Outrun x m p k id)
      (spared : (y.runtimes p).queue.contains id = true ∨ ∃ t ∈ o.ahead, t.id = id) : Outrun y m' p k id := by
    rintro version ⟨c, hc, hp, hk, u, hu, hv⟩
    rcases drifting c hc hp hk with hin | ⟨-, hnew⟩
    · exact advances.passed hm (hold version ⟨c, hin, hp, hk, u, hu, hv⟩)
    · obtain ⟨huntracked, hother⟩ := hnew id u hu
      rcases spared with htracked | ⟨t, ht, hid⟩
      · rw [htracked] at huntracked
        cases huntracked
      · exact absurd hid (hother t ht)
  refine ⟨advances.ordered hm, fun c hc hp hk => ?_, fun id hid => ?_, h.ascending, fun t ht => ?_,
    fun t ht hwaits hfresh => ?_, fun hplan t ht => ?_, fun hplan t ht => ?_⟩
  · rw [settings]
    rcases drifting c hc hp hk with hin | ⟨hbelated, -⟩
    · exact (h.belated c hin hp hk).advances hm advances
    · exact hbelated.advances hm advances
  · rcases queue id hid with hin | ⟨-, hsafe⟩
    · exact outrun id (h.tracked id hin) (.inl hid)
    · exact outrun id hsafe (.inl hid)
  · obtain ⟨hcopied, hstatus⟩ := h.copied t ht
    exact ⟨hcopied.advances hm advances, hstatus⟩
  · rw [settings] at hfresh
    exact outrun t.id (h.ahead t ht hwaits hfresh) (.inr ⟨t, ht, rfl⟩)
  · obtain ⟨huntracked, hdue⟩ := h.retire hplan t ht
    rw [settings]
    refine ⟨?_, hdue⟩
    rw [Bool.eq_false_iff]
    intro htracked
    rcases queue t.id htracked with hin | ⟨hundecided, -⟩
    · rw [huntracked] at hin
      cases hin
    · rw [hplan] at hundecided
      cases hundecided
  · rw [settings]
    exact h.track hplan t ht

/-- The tasks that are left when some of them have been passed over. -/
theorem left (h : Governed p k x m o) {rest : List Task} (kept : rest <:+ o.ahead) :
    Governed p k x m (.left o.status rest) := by
  have hin {t : Task} (ht : t ∈ (Outlook.left o.status rest).ahead) : t ∈ rest ∧ t ∈ o.ahead := by
    rw [Outlook.ahead_left] at ht
    exact ⟨ht, kept.subset ht⟩
  have hplan : (Outlook.left o.status rest).plan = .undecided := Outlook.plan_left _ _
  refine ⟨h.ordered, h.belated, h.tracked, ?_, fun t ht => ?_, fun t ht => h.ahead t (hin ht).2,
    fun hretire => ?_, fun htrack => ?_⟩
  · rw [Outlook.ahead_left]
    exact h.ascending.sublist kept.sublist
  · rw [Outlook.status_left (hin ht).1]
    exact h.copied t (hin ht).2
  · rw [hplan] at hretire
    cases hretire
  · rw [hplan] at htrack
    cases htrack

/-- The tasks that have just been listed. -/
theorem list (h : Governed p k x m o) (represents : x.store.Represents m) {wall : Timestamp} {a : Status}
    {ts : List Task} (answer : (x.store.perform wall (.listByStatus a)).1 = .ok ts) :
    Governed p k x m (.left a ts) := by
  rw [represents.listByStatus] at answer
  obtain rfl : (m.withStatus a).map x.store.shows = ts := by cases answer; rfl
  have hlisted (t : Task) (ht : t ∈ (m.withStatus a).map x.store.shows) :
      ∃ t', m.find? t.id = some t' ∧ x.store.shows t' = t ∧ t'.status = a := by
    obtain ⟨t', ht', rfl⟩ := List.mem_map.1 ht
    obtain ⟨hmem, hstatus⟩ := List.mem_filter.1 ht'
    refine ⟨t', ?_, rfl, by simpa using hstatus⟩
    rw [Backend.shows_id]
    exact h.ordered.find?_of_mem hmem
  have hin {t : Task} (ht : t ∈ (Outlook.left a ((m.withStatus a).map x.store.shows)).ahead) :
      t ∈ (m.withStatus a).map x.store.shows := by rwa [Outlook.ahead_left] at ht
  have hplan : (Outlook.left a ((m.withStatus a).map x.store.shows)).plan = .undecided := Outlook.plan_left _ _
  refine ⟨h.ordered, h.belated, h.tracked, ?_, fun t ht => ?_, fun t ht hwaits hfresh => ?_, fun hretire => ?_,
    fun htrack => ?_⟩
  · rw [Outlook.ahead_left]
    refine List.pairwise_map.2 ((h.ordered.ascending.filter _).imp fun {t t'} hlt => ?_)
    rw [Backend.shows_id, Backend.shows_id]
    exact hlt
  · obtain ⟨t', hfind, rfl, hstatus⟩ := hlisted t (hin ht)
    refine ⟨⟨t', rfl, h.ordered.recalls_of_mem (Memory.mem_of_find? hfind)⟩, ?_⟩
    rw [Outlook.status_left (hin ht), Backend.shows_status]
    exact hstatus
  · -- a waiting task with attempts left is past everything that is due to be retired
    obtain ⟨t', hfind, rfl, hstatus⟩ := hlisted t (hin ht)
    rw [Backend.shows_status] at hwaits
    rintro version ⟨c, hc, hp, hk, u, hu, hv⟩
    have hbelated := h.belated c hc hp hk
    rw [hu] at hbelated
    obtain ⟨t₀, hcopied, hid, hexpects, hdue⟩ := hbelated
    rw [hexpects] at hv
    cases hv
    exact hcopied.passed hdue hid hfind hwaits hfresh
  · rw [hplan] at hretire
    cases hretire
  · rw [hplan] at htrack
    cases htrack

/-- A queue tracks no more than before unless it is made to. -/
theorem contains_of_onQueue {q : Queue} {i : Nat} (other : ∀ now task, deed ≠ .track now task) {id : Int}
    (h : (deed.onQueue i q).contains id = true) : q.contains id = true := by
  rw [← Bool.not_eq_false]
  intro hnot
  rw [Deed.contains_onQueue hnot i fun now task hd => absurd hd (other now task)] at h
  cases h

/-- Whatever the dispatcher does, all of it stays true. -/
theorem turn (h : Governed p k x m o) (represents : x.store.Represents m)
    (turns : o.Turns (x.runtimes p).settings deed o') {seat seat' : Seat}
    (did : System.Did x p k seat deed seat' y es) (advances : Advances x.store m y.store m') :
    Governed p k y m' o' := by
  have calm (other : ∀ now task, deed ≠ .track now task) (id : Int)
      (hid : (y.runtimes p).queue.contains id = true) : (x.runtimes p).queue.contains id = true :=
    contains_of_onQueue other (did.queue ▸ hid)
  -- nothing but the update of a status matters once it drifts
  have silent (hquiet : deed.isQuiet = true) (c : Author × Request) (hc : c ∈ y.drifting) (rest : List Task) :
      c ∈ x.drifting ∨ Belated (x.runtimes p).settings x.store m c.2 ∧ ∀ id u, c.2 = .updateStatus id u →
        (y.runtimes p).queue.contains id = false ∧ ∀ t ∈ rest, t.id ≠ id := by
    obtain ⟨a, r⟩ := c
    rcases did.stored.of_drifting hc with hin | ⟨-, ⟨e, rfl⟩ | rfl⟩
    · exact .inl hin
    all_goals
      right
      cases r <;> first
        | exact ⟨trivial, fun _ _ hr => by cases hr⟩
        | cases hquiet
  cases turns with
  | list a ts =>
    cases did.stored with
    | answered answer store drifting =>
      refine (h.list represents (by rw [answer]; rfl)).move advances did.settings
        (fun id hid => .inl (calm (fun _ _ hd => by cases hd) id hid)) fun c hc _ _ => .inl (drifting ▸ hc)
    | aside noCall => cases noCall
  | @condemn a task rest due =>
    have huntracked : (x.runtimes p).queue.contains task.id = false := did.fits.symm
    have hdue : task.status = .processing ∨ (x.runtimes p).settings.maxAttempts ≤ task.attempts := by
      rcases due with rfl | hused
      · exact .inl (h.copied task List.mem_cons_self).2
      · exact .inr hused
    have hdecided : Governed p k x m ⟨a, task :: rest, .retire⟩ :=
      { h with
        retire := fun _ t ht => by
          obtain rfl := Option.some.inj ht
          exact ⟨huntracked, hdue⟩
        track := fun hplan => by cases hplan }
    exact hdecided.move advances did.settings (fun id hid => .inl (calm (fun _ _ hd => by cases hd) id hid))
      fun c hc _ _ => silent rfl c hc _
  | @choose task rest fresh =>
    have hdecided : Governed p k x m ⟨.pending, task :: rest, .track⟩ :=
      { h with
        retire := fun hplan => by cases hplan
        track := fun _ t ht => by
          obtain rfl := Option.some.inj ht
          exact ⟨(h.copied task List.mem_cons_self).2, fresh⟩ }
    exact hdecided.move advances did.settings (fun id hid => .inl (calm (fun _ _ hd => by cases hd) id hid))
      fun c hc _ _ => silent rfl c hc _
  | @retire a task rest result =>
    -- the task is behind, and the queue does not track it
    obtain ⟨huntracked, hdue⟩ := h.retire rfl task rfl
    obtain ⟨hlt, -⟩ := List.pairwise_cons.1 h.ascending
    refine (h.left (List.suffix_cons task rest)).move advances did.settings
      (fun id hid => .inl (calm (fun _ _ hd => by cases hd) id hid)) fun c hc _ _ => ?_
    obtain ⟨b, r⟩ := c
    rcases did.stored.of_drifting hc with hin | ⟨-, ⟨e, hask⟩ | hdrop⟩
    · exact .inl hin
    · injection hask with hr _
      subst hr
      refine .inr ⟨⟨task, (h.copied task List.mem_cons_self).1, rfl, rfl, hdue⟩, ?_⟩
      rintro id u ⟨⟩
      refine ⟨?_, fun t ht hid => ?_⟩
      · rw [Bool.eq_false_iff]
        intro htracked
        rw [calm (fun _ _ hd => by cases hd) _ htracked] at huntracked
        cases huntracked
      · rw [Outlook.ahead_left] at ht
        have hless := hlt t ht
        omega
    · cases hdrop
  | @track a task rest now =>
    obtain ⟨hwaits, hfresh⟩ := h.track rfl task rfl
    refine (h.left (List.suffix_cons task rest)).move advances did.settings (fun id hid => ?_) fun c hc _ _ => ?_
    · rw [did.queue] at hid
      rcases (Queue.contains_track _ now task id).1 hid with rfl | hin
      · exact .inr ⟨Outlook.plan_left _ _, h.ahead task List.mem_cons_self hwaits hfresh⟩
      · exact .inl hin
    · rcases did.stored.of_drifting hc with hin | ⟨-, ⟨e, hask⟩ | hdrop⟩
      · exact .inl hin
      · cases hask
      · cases hdrop
  | @pass a ahead rest deed quiet kept =>
    have hkept : Governed p k x m (.left a rest) := by
      cases ahead with
      | nil =>
        obtain rfl := List.suffix_nil.1 kept
        exact h
      | cons task ahead => exact h.left kept
    refine hkept.move advances did.settings (fun id hid => .inl (calm (fun _ _ hd => ?_) id hid))
      fun c hc _ _ => silent quiet c hc _
    rw [hd] at quiet
    cases quiet

/-- Whatever anybody else does who does not feed the queue, all of it stays true. -/
theorem bystand (h : Governed p k x m o) {q i : Nat} {seat seat' : Seat} (did : System.Did x q i seat deed seat' y es)
    (elsewhere : ¬ (q = p ∧ i = k)) (calm : q = p → ∀ now task, deed ≠ .track now task)
    (advances : Advances x.store m y.store m') : Governed p k y m' o := by
  refine h.move advances ?_ (fun id hid => .inl ?_) fun c hc hp hk => ?_
  · by_cases hq : q = p
    · subst hq
      exact did.settings
    · rw [did.others p fun he => hq he.symm]
  · by_cases hq : q = p
    · subst hq
      exact contains_of_onQueue (calm rfl) (did.queue ▸ hid)
    · rwa [did.others p fun he => hq he.symm] at hid
  · rcases did.stored.of_drifting hc with hin | ⟨hauthor, -⟩
    · exact .inl hin
    · rw [hauthor] at hp hk
      exact absurd ⟨hp, hk⟩ elsewhere

/-- What the clock says, who sits where, and whether tokens have fired, does not matter. -/
theorem congr (h : Governed p k x m o) (advances : Advances x.store m y.store m')
    (drifting : ∀ c ∈ y.drifting, c ∈ x.drifting) (settings : (y.runtimes p).settings = (x.runtimes p).settings)
    (queue : (y.runtimes p).queue = (x.runtimes p).queue) : Governed p k y m' o :=
  h.move advances settings (fun _ hid => .inl (queue ▸ hid)) fun c hc _ _ => .inl (drifting c hc)

end Governed

/-! ### Runs -/

/-- Who sits in a runtime whose queue is fed from one seat: the loop of a dispatcher or nobody in that seat, and nobody
who feeds the queue in the others. -/
structure Fed (p k : Nat) (x : System) : Prop where
  others : ∀ i, i ≠ k → feeds (x.seats p i).job = false
  loop : (∃ d, (x.seats p k).job = .dispatcher d) ∨ ∃ reply, (x.seats p k).job = .ended reply

theorem Fed.setSeat (h : Fed p k x) {q i : Nat} {seat : Seat} (hother : q = p → i ≠ k → feeds seat.job = false)
    (hloop : q = p → i = k → (∃ d, seat.job = .dispatcher d) ∨ ∃ reply, seat.job = .ended reply) :
    Fed p k (x.setSeat q i seat) where
  others j hj := by
    rw [System.seats_setSeat]
    split
    · rename_i he
      exact hother he.1.symm (he.2 ▸ hj)
    · exact h.others j hj
  loop := by
    rw [System.seats_setSeat]
    split
    · rename_i he
      exact hloop he.1.symm he.2.symm
    · exact h.loop

/-- Whoever acts in the seat of the dispatcher is its loop. -/
theorem Fed.of_does (h : Fed p k x) {job : Job}
    (does : ((x.seats p k).job.next (x.runtimes p).settings).Does (x.seats p k).job deed job) :
    ∃ d d', (x.seats p k).job = .dispatcher d ∧ job = .dispatcher d' ∧
      (d.next (x.runtimes p).settings).Does d deed d' := by
  rcases h.loop with ⟨d, hd⟩ | ⟨reply, hended⟩
  · rw [hd] at does
    obtain ⟨d', hdoes, hd'⟩ := Step.Does.of_map does
    exact ⟨d, d', hd, hd', hdoes⟩
  · rw [hended] at does
    cases does

theorem Fed.step (h : Fed p k x) {c : Choice} (ok : fedBySeat p k c) (hstep : x.step c = some (y, es')) :
    Fed p k y := by
  cases System.occurs_of_step hstep with
  | @spawned q i round reply job free begins =>
    refine h.setSeat (fun hq hi => ?_) fun hq hi => ?_
    · have hfeeds := ok hq
      rwa [if_neg hi] at hfeeds
    · have hloop := ok hq
      rw [if_pos hi] at hloop
      exact .inl ⟨_, hloop⟩
  | @acted q i how deed s' z es₁ does did =>
    have hz : Fed p k z := ⟨did.seats ▸ h.others, did.seats ▸ h.loop⟩
    refine hz.setSeat (fun hq hi => ?_) fun hq hi => ?_
    · subst hq
      exact (not_feeds_of_does does (h.others i hi)).1
    · subst hq hi
      obtain ⟨d, d', -, hd', -⟩ := h.of_does does
      exact .inl ⟨d', hd'⟩
  | _ => exact ⟨h.others, h.loop⟩

/-- What is known of a system in which the queue of a runtime is fed from one seat. -/
structure Governing (p k : Nat) (x : System) (m : Memory) (es : List Event) : Prop where
  ledger : Ledger x.store m es
  fed : Fed p k x
  governed : Governed p k x m (outlook (x.seats p k).job)

theorem governing_start {wall : Timestamp} {settings : Nat → Settings} (hb : b = .memory .empty ∨ b = .table .fresh)
    (p k : Nat) : Governing p k (.start b wall settings) .empty [] where
  ledger := ledger_start hb
  fed := ⟨fun _ _ => rfl, .inr ⟨_, rfl⟩⟩
  governed := by
    refine ⟨Memory.ordered_empty, fun c hc => ?_, fun id hid => ?_, .nil, fun t ht => ?_, fun t ht => ?_,
      fun hplan => ?_, fun hplan => ?_⟩
    · cases hc
    · cases hid
    · cases ht
    · cases ht
    · cases hplan
    · cases hplan

/-- Whatever happens, the dispatcher and its queue stay as they should be. -/
theorem Governing.step (h : Governing p k x m es) {c : Choice} (ok : fedBySeat p k c) (hstep : x.step c = some (y, es'))
    (few : ∀ id, (moveCount id (es ++ es') : Int) ≤ Sql.mostInteger) : ∃ m', Governing p k y m' (es ++ es') := by
  obtain ⟨m', hledger, advances⟩ := h.ledger.step hstep few
  refine ⟨m', hledger, h.fed.step ok hstep, ?_⟩
  cases System.occurs_of_step hstep with
  | @spawned q i round reply job free begins =>
    have hgoverned := h.governed.congr (y := x.setSeat q i ⟨round + 1, job⟩) advances (fun c hc => hc) rfl rfl
    rw [System.seats_setSeat]
    split
    · -- the loop begins with nothing before it, like whoever has ended
      rename_i he
      obtain ⟨rfl, rfl⟩ := he
      have hloop := ok rfl
      rw [if_pos rfl] at hloop
      rw [free] at hgoverned
      rw [hloop] at hgoverned ⊢
      exact hgoverned
    · exact hgoverned
  | @acted q i how deed s' z es₁ does did =>
    rw [System.seats_setSeat]
    split
    · rename_i he
      obtain ⟨rfl, rfl⟩ := he
      obtain ⟨d, d', hd, hd', hdoes⟩ := h.fed.of_does does
      have hgoverned := h.governed
      rw [hd] at hgoverned
      rw [hd']
      have hafter := hgoverned.turn h.ledger.represents (Dispatcher.turns_of_does hdoes) did advances
      exact hafter.congr .stay (fun c hc => hc) rfl rfl
    · rename_i he
      have calm (hq : q = p) : ∀ now task, deed ≠ .track now task := by
        subst hq
        exact (not_feeds_of_does does (h.fed.others i fun hi => he ⟨rfl, hi.symm⟩)).2
      have hafter := h.governed.bystand did (fun hk => he ⟨hk.1.symm, hk.2.symm⟩) calm advances
      rw [did.seats]
      exact hafter.congr .stay (fun c hc => hc) rfl rfl
  | landed drifts => exact h.governed.congr advances (fun c hc => List.mem_of_mem_eraseIdx hc) rfl rfl
  | cancelled =>
    refine h.governed.congr advances (fun c hc => hc) ?_ ?_
    all_goals
      simp only [System.modify]
      split <;> rfl
  | timed => exact h.governed.congr advances (fun c hc => hc) rfl rfl

/-- An update from the seat of the dispatcher takes effect on no task that the queue tracks. -/
theorem Governing.untracked_of_landed (h : Governing p k x m es) {c : Choice} (hstep : x.step c = some (y, es'))
    {a : Author} {id version : Int} (he : Event.landed a id version ∈ es') (hp : a.runtime = p) (hk : a.seat = k) :
    (x.runtimes p).queue.contains id = false := by
  cases System.occurs_of_step hstep with
  | @acted q i how deed s' z es₁ does did =>
    rcases List.mem_append.1 he with he | he
    · obtain ⟨r, result, rfl, hlanding⟩ := did.stored.of_landed he
      obtain ⟨rfl, u, rfl⟩ := System.mem_landing hlanding
      obtain ⟨rfl, rfl⟩ : q = p ∧ i = k := ⟨hp, hk⟩
      obtain ⟨d, d', hd, -, hdoes⟩ := h.fed.of_does does
      have hretire := h.governed.retire
      have hturns := Dispatcher.turns_of_does hdoes
      rw [hd, show outlook (.dispatcher d) = d.outlook from rfl] at hretire
      generalize d.outlook = o, d'.outlook = o' at hturns hretire
      cases hturns with
      | @retire a task rest result => exact (hretire rfl task rfl).1
      | pass quiet kept => cases quiet
    · obtain ⟨credit, -, hcredit⟩ := List.mem_map.1 he
      cases hcredit
  | @landed j a' r drifts =>
    obtain ⟨rfl, u, rfl⟩ := System.mem_landing he
    rw [Bool.eq_false_iff]
    intro htracked
    rcases landing_cases h.ledger.represents h.ledger.ordered x.wall a (.updateStatus id u) with
      hnone | ⟨id', u', t, hr, ht, hu, -⟩
    · rw [hnone] at he
      cases he
    · -- the update expects a version that the task has left behind
      cases hr
      have hin := List.mem_of_getElem? drifts
      obtain ⟨t₀, -, -, hexpects, -⟩ := h.governed.belated _ hin hp hk
      obtain ⟨-, hpassed⟩ := h.governed.tracked id htracked t₀.version ⟨_, hin, hp, hk, u, rfl, hexpects⟩
      have hversion := (StatusUpdate.refusal?_eq_none_iff.1 hu).1 _ hexpects
      have hlt := hpassed t ht
      omega
  | _ => cases he

/-- **Main theorem.**  Any number of runtimes share a store of either kind with other callers, and the queue of one of
them is fed by nobody but the loop of its dispatcher.  Whatever has happened in whatever order, and whatever the
settings are, no update that the dispatcher has begun, to take a task back or to give it up, takes effect on a task that
the queue tracks at that moment: neither an update that is answered at once, nor one whose caller was told that it had
failed.  No task has moved more often than 64 bits can count. -/
theorem System.Reaches.tracked_left_alone {wall : Timestamp} {settings : Nat → Settings} {p k : Nat}
    (hb : b = .memory .empty ∨ b = .table .fresh) (h : System.Reaches (fedBySeat p k) (.start b wall settings) x es)
    (few : ∀ id, (moveCount id es : Int) ≤ Sql.mostInteger) {c : Choice} (hstep : x.step c = some (y, es'))
    {a : Author} {id version : Int} (he : Event.landed a id version ∈ es') (hp : a.runtime = p) (hk : a.seat = k) :
    (x.runtimes p).queue.contains id = false := by
  have hgoverning : ∃ m, Governing p k x m es := by
    -- the induction is on what has happened before the step in question
    clear he hstep
    induction h with
    | start => exact ⟨.empty, governing_start hb p k⟩
    | step _ ok hstep ih =>
      obtain ⟨m, h⟩ := ih fun id => by
        have hfew := few id
        rw [moveCount_append] at hfew
        omega
      exact h.step ok hstep few
  obtain ⟨m, hgoverning⟩ := hgoverning
  exact hgoverning.untracked_of_landed hstep he hp hk

/-- A task in processing that belongs to nobody is retired by a dispatcher in its first tick, whose update gets lost. -/
def lostRetirement : List Choice :=
  [[.spawn 1 0 (.ask (.create ⟨"text", "user"⟩) none), .act 1 0 .go,
    .spawn 1 0 (.ask (.updateStatus 1 (.claim default)) none), .act 1 0 .go, .spawn 0 0 (.dispatcher .starting),
    .act 0 0 .go, .act 0 0 (.at .zero), .act 0 0 (.at .zero)], List.replicate 4 (.act 0 0 .go),
    [.act 0 0 (.fail (.unavailable "down"))]].flatten

/-- The lost update of a dispatcher lands on a task that its queue does not track. -/
theorem System.tracked_left_alone_of_lostRetirement : ∃ x y es es',
    System.Reaches (fedBySeat 0 0) (.start (.memory .empty) default fun _ => .standard) x es ∧
      x.step (.land 0) = some (y, es') ∧ .landed ⟨0, 0, 1⟩ 1 1 ∈ es' ∧ (x.runtimes 0).queue.contains 1 = false := by
  have allowed : ∀ c ∈ lostRetirement, fedBySeat 0 0 c := by simp [lostRetirement, fedBySeat]
  have reaches := System.Reaches.start.run
    (x := .start (.memory .empty) default fun _ => .standard) allowed rfl
  have landed : Event.landed ⟨0, 0, 1⟩ 1 1 ∈ [Event.landed ⟨0, 0, 1⟩ 1 1] := List.mem_singleton_self _
  have untracked := reaches.tracked_left_alone (c := .land 0) (.inl rfl)
    (fun id => Int.le_trans (Int.ofNat_le.2 (moveCount_le id _)) (show (1 : Int) ≤ Sql.mostInteger by decide))
    rfl landed rfl rfl
  exact ⟨_, _, _, _, reaches, rfl, landed, untracked⟩

end Backlog.Interleaving

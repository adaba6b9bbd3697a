import Backlog.Proofs.Interleaving.Ownership

/-!
# No task is in two hands

Where the queue of a runtime is fed by the loop of its dispatcher alone, a task that the queue tracks lies in the
channel, or the loop is just adding it, or a worker holds it, or somebody has taken it out of the channel who does not
strike it off.  The workers of a runtime may come and go at any time, and others may receive tasks as well.

Key facts: a task is in one of these places at most (`Apart`), whatever the dispatcher and the workers do
(`Apart.pass`, `Apart.hold`).  So no two workers of the runtime hold the same task (`Unshared.step`).
-/

namespace Backlog.Interleaving

open Dispatch Simulation Store

/-- The task that a job holds as a worker. -/
def heldBy : Job → Option Int
  | .worker w => w.held?
  | _ => none

/-- The task that a job has chosen as a dispatcher. -/
def chosenBy : Job → Option Int
  | .dispatcher d => d.chosen?
  | _ => none

/-- The task that a job is adding as a dispatcher. -/
def addingBy : Job → Option Int
  | .dispatcher d => d.adding?
  | _ => none

/-- The tasks that are on their way to a worker. -/
def underWay (q : Queue) (adding : Option Int) : List Int := q.channel.items.map Task.id ++ adding.toList

/-- No task is in two places: on its way or in the hands of a worker.  What the dispatcher has chosen is in none. -/
structure Apart (q : Queue) (chosen adding : Option Int) (held : Nat → Option Int) : Prop where
  nodup : (underWay q adding).Nodup
  tracked : ∀ id ∈ underWay q adding, id ∈ q.ids
  free : ∀ id, chosen = some id → id ∉ q.ids
  hands : ∀ i id, held i = some id → id ∈ q.ids ∧ id ∉ underWay q adding
  apart : ∀ i j id, held i = some id → held j = some id → i = j

namespace Apart

variable {q : Queue} {chosen chosen' adding adding' held' : Option Int} {held : Nat → Option Int} {deed : Deed}
  {t : Ticket} {cancelled : Bool}

private theorem mem_ids_untrack {q : Queue} {id j : Int} : j ∈ (q.untrack id).2.ids ↔ j ∈ q.ids ∧ j ≠ id := by
  rw [Queue.ids_untrack, List.mem_filter, decide_eq_true_eq]

private theorem mem_ids_track {q : Queue} {now : Timestamp} {task : Task} {j : Int} :
    j ∈ (q.track now task).ids ↔ j ∈ q.ids ∨ j = task.id := by
  rw [Queue.ids_track, List.mem_append, List.mem_filter, List.mem_singleton, decide_eq_true_eq]
  by_cases hj : j = task.id <;> simp [hj]

/-- What the queue tracks and where the tasks under way are is all that matters of it. -/
private theorem congr (h : Apart q chosen adding held) {q' : Queue} (ids : q'.ids = q.ids)
    (perm : (underWay q' adding').Perm (underWay q adding)) (free : ∀ id, chosen' = some id → id ∉ q.ids) :
    Apart q' chosen' adding' held where
  nodup := perm.nodup_iff.2 h.nodup
  tracked id hid := ids ▸ h.tracked id (perm.mem_iff.1 hid)
  free id hid := ids ▸ free id hid
  hands i id hid := by
    obtain ⟨hin, hnot⟩ := h.hands i id hid
    exact ⟨ids ▸ hin, fun hway => hnot (perm.mem_iff.1 hway)⟩
  apart := h.apart

/-- Whatever the dispatcher does, no task comes to be in two places. -/
theorem pass (h : Apart q chosen adding held) (passes : Dispatcher.Passes chosen adding deed chosen' adding')
    (fits : deed.Fits t cancelled q) : Apart (deed.onQueue t q) chosen' adding' held := by
  have nothing (id : Int) (hid : (none : Option Int) = some id) : id ∉ q.ids := by cases hid
  cases passes with
  | choose id =>
    refine h.congr rfl (.refl _) ?_
    rintro _ ⟨⟩ hmem
    have hcontains := (q.contains_iff_mem_ids id).2 hmem
    rw [← show false = q.contains id from fits] at hcontains
    cases hcontains
  | track now task =>
    have hfree : task.id ∉ q.ids := h.free _ rfl
    have hway : underWay ((Deed.track now task).onQueue t q) (some task.id) = underWay q none ++ [task.id] := by
      unfold underWay
      rw [Option.toList_none, List.append_nil]
      rfl
    refine ⟨?_, fun id hid => ?_, fun id hid => (by cases hid), fun i id hid => ?_, h.apart⟩
    · rw [hway]
      refine List.nodup_append.2 ⟨h.nodup, List.pairwise_singleton _ _, fun a ha b hb hab => hfree ?_⟩
      rw [← List.mem_singleton.1 hb, ← hab]
      exact h.tracked a ha
    · refine mem_ids_track.2 ?_
      rw [hway, List.mem_append, List.mem_singleton] at hid
      exact hid.imp_left (h.tracked id)
    · obtain ⟨hin, hnot⟩ := h.hands i id hid
      refine ⟨mem_ids_track.2 (.inl hin), ?_⟩
      rw [hway, List.mem_append, List.mem_singleton]
      rintro (hbefore | rfl)
      · exact hnot hbefore
      · exact hfree hin
  | join id =>
    refine h.congr rfl ?_ nothing
    show ((q.channel.join t).items.map Task.id ++ _).Perm _
    rw [Channel.items_join]
    rfl
  | send task =>
    refine h.congr rfl ?_ nothing
    show ((q.channel.items ++ [task]).map Task.id ++ []).Perm (q.channel.items.map Task.id ++ [task.id])
    rw [List.map_append, List.append_nil]
    rfl
  | leave id =>
    refine h.congr rfl ?_ nothing
    show ((q.channel.leave t).items.map Task.id ++ _).Perm _
    rw [Channel.items_leave]
    rfl
  | untrack id tracked =>
    obtain ⟨hnodup, -, hlast⟩ := List.nodup_append.1 h.nodup
    have hother (j : Int) (hj : j ∈ q.channel.items.map Task.id) : j ≠ id := hlast j hj id (List.mem_singleton_self id)
    have hway : underWay (q.untrack id).2 none = q.channel.items.map Task.id := List.append_nil _
    refine ⟨hway.symm ▸ hnodup, fun j hj => ?_, fun j hj => (by cases hj), fun i j hj => ?_, h.apart⟩
    · replace hj : j ∈ q.channel.items.map Task.id := hway ▸ hj
      exact mem_ids_untrack.2 ⟨h.tracked j (List.mem_append_left _ hj), hother j hj⟩
    · obtain ⟨hin, hnot⟩ := h.hands i j hj
      unfold underWay at hnot
      rw [List.mem_append, not_or] at hnot
      refine ⟨mem_ids_untrack.2 ⟨hin, ?_⟩, hway.symm ▸ hnot.1⟩
      rintro rfl
      exact hnot.2 (List.mem_singleton_self _)
  | aside haside =>
    rw [Deed.onQueue_of_isAside haside]
    exact h.congr rfl (.refl _) nothing

/-- Whatever a worker does, no task comes to be in two places. -/
theorem hold (h : Apart q chosen adding held) {i : Nat} (holds : Worker.Holds (held i) deed held')
    (fits : deed.Fits t cancelled q) : Apart (deed.onQueue t q) chosen adding (Function.update held i held') := by
  have same {o : Option Int} (ho : held i = o) : Function.update held i o = held := by
    rw [← ho, Function.update_eq_self]
  generalize hbefore : held i = before at holds
  cases holds with
  | queueUp =>
    rw [same hbefore]
    exact h.congr rfl (.refl _) h.free
  | turnAway =>
    rw [same hbefore]
    exact h.congr rfl (.refl _) h.free
  | take task =>
    obtain ⟨c, hc, hafter⟩ := fits.exists_takeFor
    rw [hafter]
    -- the task moves from the front of the channel into the hand
    have hway : underWay q adding = task.id :: underWay { q with channel := c } adding := by
      unfold underWay
      rw [(Channel.takeFor_spec hc).1]
      rfl
    obtain ⟨hnot, hnodup⟩ := List.nodup_cons.1 (hway ▸ h.nodup)
    have hin {id : Int} (hid : id ∈ underWay { q with channel := c } adding) : id ∈ underWay q adding := by
      rw [hway]
      exact List.mem_cons_of_mem _ hid
    have hfirst : task.id ∈ underWay q adding := by
      rw [hway]
      exact List.mem_cons_self
    refine ⟨hnodup, fun id hid => h.tracked id (hin hid), h.free, fun j id hid => ?_, fun j j' id hj hj' => ?_⟩
    · rw [Function.update_apply] at hid
      split at hid
      · cases hid
        exact ⟨h.tracked _ hfirst, hnot⟩
      · obtain ⟨htracked, hway'⟩ := h.hands j id hid
        exact ⟨htracked, fun hid => hway' (hin hid)⟩
    · rw [Function.update_apply] at hj hj'
      split at hj <;> split at hj'
      · rename_i he he'
        rw [he, he']
      · cases hj
        exact absurd hfirst (h.hands j' _ hj').2
      · cases hj'
        exact absurd hfirst (h.hands j _ hj).2
      · exact h.apart j j' id hj hj'
  | untrack id tracked =>
    obtain ⟨-, hnot⟩ := h.hands i id hbefore
    refine ⟨h.nodup, fun j hj => mem_ids_untrack.2 ⟨h.tracked j hj, ?_⟩, fun j hj hin => ?_, fun j id' hid => ?_,
      fun j j' id' hj hj' => ?_⟩
    · rintro rfl
      exact hnot hj
    · exact h.free j hj (mem_ids_untrack.1 hin).1
    · rw [Function.update_apply] at hid
      split at hid
      · cases hid
      · rename_i hne
        obtain ⟨hin, hway⟩ := h.hands j id' hid
        refine ⟨mem_ids_untrack.2 ⟨hin, ?_⟩, hway⟩
        rintro rfl
        exact hne (h.apart j i _ hid hbefore)
    · rw [Function.update_apply] at hj hj'
      split at hj <;> split at hj'
      · cases hj
      · cases hj
      · cases hj'
      · exact h.apart j j' id' hj hj'
  | aside haside =>
    rw [Deed.onQueue_of_isAside haside, same hbefore]
    exact h

/-- A worker may lose what it holds. -/
theorem drop (h : Apart q chosen adding held) {held' : Nat → Option Int}
    (less : ∀ i, held' i = held i ∨ held' i = none) : Apart q chosen adding held' where
  nodup := h.nodup
  tracked := h.tracked
  free := h.free
  hands i id hid := by
    rcases less i with hsame | hnone
    · exact h.hands i id (hsame ▸ hid)
    · rw [hnone] at hid
      cases hid
  apart i j id hi hj := by
    rcases less i with hsame | hnone
    · rcases less j with hsame' | hnone'
      · exact h.apart i j id (hsame ▸ hi) (hsame' ▸ hj)
      · rw [hnone'] at hj
        cases hj
    · rw [hnone] at hi
      cases hi

end Apart

/-! ### The queue of a runtime and its workers -/

variable {x y : System} {p k : Nat} {es es' : List Event} {settings : Settings} {job job' : Job} {deed : Deed}

/-- Whoever does not feed the queue does to it what a worker does, and holds what a worker would hold, or nothing. -/
private theorem holds_of_does (h : (job.next settings).Does job deed job') (feeding : feeds job = false) :
    ∃ held', Worker.Holds (heldBy job) deed held' ∧ (heldBy job' = held' ∨ heldBy job' = none) := by
  cases job with
  | dispatcher d => cases feeding
  | poll poll => cases feeding
  | enqueue interruptible task stage => cases feeding
  | worker w =>
    obtain ⟨w', hdoes, rfl⟩ := Step.Does.of_map h
    exact ⟨_, Worker.holds_of_does hdoes, .inl rfl⟩
  | reclaim pass =>
    obtain ⟨pass', hdoes, rfl⟩ := Step.Does.of_map h
    exact ⟨none, .aside (Reclaim.isAside_of_does hdoes) none, .inr rfl⟩
  | ask r limit =>
    cases h with
    | ask result => exact ⟨none, .aside rfl none, .inr rfl⟩
    | drop hy => cases hy
  | receive =>
    cases h with
    | queueUp => exact ⟨none, .queueUp, .inr rfl⟩
    | take task => exact ⟨some task.id, .take task, .inr rfl⟩
    | turnAway hy => cases hy
  | pause span =>
    cases h with
    | rest => exact ⟨none, .aside rfl none, .inr rfl⟩
    | rouse hy => cases hy
  | ended reply => cases h

/-- No task is in two places of a runtime, and who sits there. -/
structure Unshared (p k : Nat) (x : System) : Prop where
  fed : Fed p k x
  apart : Apart (x.runtimes p).queue (chosenBy (x.seats p k).job) (addingBy (x.seats p k).job)
    fun i => heldBy (x.seats p i).job

theorem unshared_start (b : Backend) (wall : Timestamp) (settings : Nat → Settings) (p k : Nat) :
    Unshared p k (.start b wall settings) where
  fed := ⟨fun _ _ => rfl, .inr ⟨_, rfl⟩⟩
  apart := by
    refine ⟨.nil, fun id hid => ?_, fun id hid => ?_, fun i id hid => ?_, fun i j id hid => ?_⟩
    all_goals cases hid

private theorem heldBy_of_isBeginning (h : isBeginning job = true) : heldBy job = none := by
  cases job with
  | worker w => cases w <;> first | rfl | cases h
  | _ => rfl

private theorem chosenBy_of_isBeginning (h : isBeginning job = true) : chosenBy job = none ∧ addingBy job = none := by
  cases job with
  | dispatcher d => cases d <;> first | exact ⟨rfl, rfl⟩ | cases h
  | _ => exact ⟨rfl, rfl⟩

private theorem Unshared.acted (h : Unshared p k x) {i : Nat} {s' : Seat} {z : System}
    (does : ((x.seats p i).job.next (x.runtimes p).settings).Does (x.seats p i).job deed s'.job)
    (did : System.Did x p i (x.seats p i) deed s' z es) :
    Apart ((z.setSeat p i s').runtimes p).queue (chosenBy ((z.setSeat p i s').seats p k).job)
      (addingBy ((z.setSeat p i s').seats p k).job) fun j => heldBy ((z.setSeat p i s').seats p j).job := by
  have hqueue : ((z.setSeat p i s').runtimes p).queue = deed.onQueue i (x.runtimes p).queue := did.queue
  have hseat (j : Nat) : ((z.setSeat p i s').seats p j).job = if j = i then s'.job else (x.seats p j).job := by
    rw [System.seats_setSeat, did.seats]
    by_cases hj : j = i <;> simp [hj]
  by_cases hk : i = k
  · subst hk
    obtain ⟨d, d', hd, hd', hdoes⟩ := h.fed.of_does does
    have hapart := h.apart
    rw [hd] at hapart
    rw [hqueue, hseat, if_pos rfl, hd']
    refine (hapart.pass (Dispatcher.passes_of_does hdoes) did.fits).drop fun j => ?_
    rw [hseat]
    split
    · exact .inr (by rw [hd']; rfl)
    · exact .inl rfl
  · obtain ⟨held', hholds, hless⟩ := holds_of_does does (h.fed.others i hk)
    rw [hqueue, hseat, if_neg fun he => hk he.symm]
    refine (h.apart.hold (i := i) hholds did.fits).drop fun j => ?_
    rw [hseat, Function.update_apply]
    split
    · exact hless
    · exact .inl rfl

theorem Unshared.step (h : Unshared p k x) {c : Choice} (ok : fedBySeat p k c)
    (hstep : x.step c = some (y, es')) : Unshared p k y := by
  refine ⟨h.fed.step ok hstep, ?_⟩
  cases System.occurs_of_step hstep with
  | @spawned q i round reply job free begins =>
    -- whoever begins holds nothing, as nobody did in the seat before
    have hseat (f : Job → Option Int) (hf : f job = none) (hended : f (.ended reply) = none) (j : Nat) :
        f ((x.setSeat q i ⟨round + 1, job⟩).seats p j).job = f (x.seats p j).job := by
      rw [System.seats_setSeat]
      split
      · rename_i he
        obtain ⟨rfl, rfl⟩ := he
        rw [free, hended]
        exact hf
      · rfl
    obtain ⟨hchosen, hadding⟩ := chosenBy_of_isBeginning begins
    rw [hseat chosenBy hchosen rfl, hseat addingBy hadding rfl]
    simp only [hseat heldBy (heldBy_of_isBeginning begins) rfl]
    exact h.apart
  | @acted q i how deed s' z es₁ does did =>
    by_cases hq : q = p
    · subst hq
      exact h.acted does did
    · have hseat (j : Nat) : (z.setSeat q i s').seats p j = x.seats p j := by
        rw [System.seats_setSeat, if_neg fun he => hq he.1.symm, did.seats]
      have hruntime : (z.setSeat q i s').runtimes p = x.runtimes p := did.others p fun he => hq he.symm
      simp only [hseat, hruntime]
      exact h.apart
  | cancelled =>
    simp only [System.modify]
    split <;> exact h.apart
  | _ => exact h.apart

end Backlog.Interleaving

import Backlog.Proofs.Interleaving.Promise
import Mathlib.Data.List.Perm.Basic

/-!
# What is counted and what is told

A runtime has a counter for each status into which its loops move tasks, and whoever counts a change gives the notice of
it next.

Key facts: the counters change by what is counted alone (`System.tally_of_serve`), and every seat has told what it has
counted, but for what it still owes (`Balanced`).  So a runtime whose seats owe nothing has counted as often as it has
told (`System.Follows.told_eq`).
-/

namespace Backlog

open Dispatch Simulation Store

/-- How many changes into a status a runtime has counted. -/
def Dispatch.Tally.changes (t : Tally) : Status → Nat
  | .processing => t.claimed
  | .completed => t.completed
  | .pending => t.reclaimed
  | .failed => t.deadLettered

theorem Dispatch.Tally.changes_record (t : Tally) (count : Count) (status : Status) :
    (t.record count).changes status = t.changes status + if count.status? = some status then 1 else 0 := by
  cases count <;> cases status <;> rfl

namespace Dispatch.Deed

theorem changes_onTally (deed : Deed) (t : Tally) (status : Status) :
    (deed.onTally t).changes status = t.changes status + if deed.counted? = some status then 1 else 0 := by
  cases deed with
  | record count => exact t.changes_record count status
  | _ => rfl

/-- The status that a deed tells of. -/
def told? (deed : Deed) : Option Status := deed.notice?.map StatusEvent.status

end Dispatch.Deed

namespace Interleaving

variable {x y : System} {p i : Nat} {s s' : Seat} {how : How} {st : Step Job} {es es' : List Event} {deed : Deed}
  {deeds : List (Nat × Deed)} {allowed : Choice → Prop} {x₀ : System} {status : Status}

/-- Whoever is served leaves the counters as the deed says. -/
private theorem System.tally_of_serve {job job' : Job} (h : x.serve p i s how st = some (s', y, es))
    (does : st.Does job deed job') : (y.runtimes p).tally = deed.onTally (x.runtimes p).tally := by
  have modified {f : Runtime → Runtime} (hf : ∀ r, (f r).tally = r.tally) :
      ((x.modify p f).runtimes p).tally = (x.runtimes p).tally := by
    simp only [modify, if_true]
    exact hf _
  -- whoever waits in a line touches the channel and nothing else
  have inLine (hchannel : ∃ f, y = x.modifyChannel p f) :
      (y.runtimes p).tally = (x.runtimes p).tally := by
    obtain ⟨f, rfl⟩ := hchannel
    exact modified fun _ => rfl
  have sending {task : Task} {interrupted : Option Job} {next : Job}
      (h : x.serve p i s how (.send task interrupted next) = some (s', y, es)) : ∃ f, y = x.modifyChannel p f := by
    simp only [serve] at h
    repeat' split at h
    all_goals cases h
    all_goals exact ⟨_, rfl⟩
  have receiving {interrupted : Option Job} {next : Task → Job}
      (h : x.serve p i s how (.receive interrupted next) = some (s', y, es)) : ∃ f, y = x.modifyChannel p f := by
    simp only [serve] at h
    repeat' split at h
    all_goals cases h
    all_goals exact ⟨_, rfl⟩
  cases does with
  | record =>
    cases h
    simp only [modify, if_true]
    rfl
  | track now =>
    cases h
    exact modified fun _ => rfl
  | untrack tracked =>
    cases h
    exact modified fun _ => rfl
  | showRunning =>
    cases h
    exact modified fun _ => rfl
  | join => exact inLine (sending h)
  | send => exact inLine (sending h)
  | leave => exact inLine (sending h)
  | queueUp => exact inLine (receiving h)
  | take task => exact inLine (receiving h)
  | turnAway => exact inLine (receiving h)
  | _ =>
    -- whatever else is done leaves the runtimes alone
    simp only [serve] at h
    repeat' split at h
    all_goals cases h
    all_goals rfl

/-- Whoever acts leaves the counters as the deed says. -/
private theorem System.tally_of_act {z : System} (h : x.step (.act p i how) = some (z, es))
    (does : ((x.seats p i).job.next (x.runtimes p).settings).Does (x.seats p i).job deed s'.job) :
    (z.runtimes p).tally = deed.onTally (x.runtimes p).tally := by
  simp only [step, act, Option.map_eq_some_iff] at h
  obtain ⟨⟨s'', y, es''⟩, hserve, hdone⟩ := h
  cases hdone
  show (y.runtimes p).tally = _
  exact tally_of_serve hserve does

private theorem System.tally_of_apart {c : Choice} (h : x.step c = some (y, es)) (apart : ∀ i how, c ≠ .act p i how) :
    (y.runtimes p).tally = (x.runtimes p).tally := by
  cases occurs_of_step h with
  | @acted q j how deed s' z es₁ does did =>
    have hother : p ≠ q := by
      rintro rfl
      exact apart j how rfl
    show (z.runtimes p).tally = _
    rw [did.others p hother]
  | cancelled =>
    simp only [modify]
    split <;> rfl
  | _ => rfl

/-! ### What is owed -/

/-- The status of whose changes a job has counted one that it is still to tell of. -/
def owed? (s : Settings) (job : Job) : Option Status :=
  (promise? s job).bind fun d => if d.isCounted then some d.update.status else none

/-- What is counted is owed, and what is told was owed. -/
private theorem owed_of_does {settings : Settings} {job job' : Job}
    (does : (job.next settings).Does job deed job') (status : Status) :
    (if deed.counted? = some status then 1 else 0) + (if owed? settings job = some status then 1 else 0)
      = (if deed.told? = some status then 1 else 0) + (if owed? settings job' = some status then 1 else 0) := by
  have hturns := promise_turns does
  unfold owed?
  generalize promise? settings job = o, promise? settings job' = o' at hturns
  cases hturns with
  | acknowledged => rfl
  | found failed looks => rfl
  | @counted id u count counts =>
    have htold : Deed.told? (.record count) = none := rfl
    simp [Deed.counted?, htold, counts]
  | @told id u userId event task same =>
    have htold : Deed.told? (.notify userId event) = some u.status := congrArg some same
    simp [Deed.counted?, htold]
  | aside uncounted untold quiet =>
    have htold : deed.told? = none := congrArg (Option.map StatusEvent.status) untold
    rw [uncounted, htold]

/-! ### The balance of a runtime -/

/-- The seats in which deeds of a kind have been done, once for each deed. -/
private def seatsOf (kind : Deed → Bool) (deeds : List (Nat × Deed)) : List Nat :=
  (deeds.filter fun e => kind e.2).map Prod.fst

/-- How often a notice of a status has been given. -/
def noticeCount (status : Status) (deeds : List (Nat × Deed)) : Nat :=
  deeds.countP fun e => e.2.told? = some status

private theorem seatsOf_concat (kind : Deed → Bool) (deeds : List (Nat × Deed)) (i : Nat) (deed : Deed) :
    seatsOf kind (deeds ++ [(i, deed)]) = seatsOf kind deeds ++ if kind deed then [i] else [] := by
  unfold seatsOf
  rw [List.filter_append, List.map_append]
  cases h : kind deed <;> simp [h]

private theorem count_seatsOf_concat (kind : Deed → Bool) (deeds : List (Nat × Deed)) (i j : Nat) (deed : Deed) :
    (seatsOf kind (deeds ++ [(i, deed)])).count j
      = (seatsOf kind deeds).count j + if i = j ∧ kind deed = true then 1 else 0 := by
  rw [seatsOf_concat, List.count_append]
  cases h : kind deed <;> simp [List.count_singleton]

/-- A runtime has counted what is counted in its seats, and every seat has told what it has counted, but for what it
owes. -/
private structure Balanced (p : Nat) (x : System) (deeds : List (Nat × Deed)) : Prop where
  counters : ∀ status, (x.runtimes p).tally.changes status
    = (seatsOf (fun deed => deed.counted? = some status) deeds).length
  seats : ∀ i status, (seatsOf (fun deed => deed.counted? = some status) deeds).count i
    = (seatsOf (fun deed => deed.told? = some status) deeds).count i
      + if owed? (x.runtimes p).settings (x.seats p i).job = some status then 1 else 0

private theorem Balanced.acted {z : System} (h : Balanced p x deeds)
    (step : x.step (.act p i how) = some (z, es))
    (does : ((x.seats p i).job.next (x.runtimes p).settings).Does (x.seats p i).job deed s'.job)
    (settings : (z.runtimes p).settings = (x.runtimes p).settings)
    (seats : ∀ j, z.seats p j = if j = i then s' else x.seats p j) : Balanced p z (deeds ++ [(i, deed)]) where
  counters status := by
    rw [System.tally_of_act step does, Deed.changes_onTally, h.counters status, seatsOf_concat, List.length_append]
    by_cases hcounts : deed.counted? = some status <;> simp [hcounts]
  seats j status := by
    have hbefore := h.seats j status
    have howed := owed_of_does does status
    rw [count_seatsOf_concat, count_seatsOf_concat, settings, seats]
    by_cases hseat : j = i
    · subst hseat
      simp only [true_and, decide_eq_true_eq, if_true]
      omega
    · rw [if_neg hseat, if_neg fun h => hseat h.1.symm, if_neg fun h => hseat h.1.symm]
      omega

private theorem owed?_of_isBeginning {settings : Settings} {job : Job} (h : isBeginning job = true) :
    owed? settings job = none := by
  unfold owed?
  rw [promise?_of_isBeginning h]
  rfl

private theorem Balanced.other (h : Balanced p x deeds) {c : Choice} (step : x.step c = some (y, es))
    (apart : ∀ i how, c ≠ .act p i how) : Balanced p y deeds where
  counters status := by
    rw [System.tally_of_apart step apart]
    exact h.counters status
  seats i status := by
    have hsettings := ((System.occurs_of_step step).runtime p).1
    -- only who begins a job changes a seat of the runtime, and neither then nor before anything is owed there
    have howed : owed? (x.runtimes p).settings (y.seats p i).job = owed? (x.runtimes p).settings (x.seats p i).job := by
      rcases (System.occurs_of_step step).seat_cases p i with
        hsame | ⟨reply, job, -, begins, hended, hjob⟩ | ⟨how, deed, s', z, es₁, hc, -⟩
      · rw [hsame]
      · rw [hjob, hended, owed?_of_isBeginning begins]
        rfl
      · exact absurd hc (apart i how)
    rw [hsettings, howed]
    exact h.seats i status

private theorem balanced_of_follows {b : Backend} {wall : Timestamp} {settings : Nat → Settings}
    (h : System.Follows allowed p (.start b wall settings) x es deeds) : Balanced p x deeds := by
  induction h with
  | start =>
    refine ⟨fun status => ?_, fun i status => rfl⟩
    cases status <;> rfl
  | acted _ _ step does did ih =>
    exact ih.acted step does did.settings fun j => by simp [System.seats_setSeat, did.seats]
  | other _ _ apart step ih => exact ih.other step apart

/-- A runtime of which no seat owes a notice has given as many notices as it has counted. -/
theorem System.Follows.told_eq {b : Backend} {wall : Timestamp} {settings : Nat → Settings}
    (h : System.Follows allowed p (.start b wall settings) x es deeds)
    (settled : ∀ i, owed? (x.runtimes p).settings (x.seats p i).job = none) (status : Status) :
    (x.runtimes p).tally.changes status = noticeCount status deeds := by
  have hbalanced := balanced_of_follows h
  have hperm : (seatsOf (fun deed => deed.counted? = some status) deeds).Perm
      (seatsOf (fun deed => deed.told? = some status) deeds) := by
    refine List.perm_iff_count.2 fun i => ?_
    have hseat := hbalanced.seats i status
    rw [settled i] at hseat
    exact hseat
  rw [hbalanced.counters status, hperm.length_eq]
  unfold seatsOf noticeCount
  rw [List.length_map, List.countP_eq_length_filter]

end Interleaving

end Backlog

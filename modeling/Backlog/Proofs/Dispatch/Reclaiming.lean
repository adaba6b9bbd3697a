import Backlog.Proofs.Dispatch.Calm

/-!
# What a pass of the reclaiming does to a task

One task is followed through a pass over the tasks in processing.  The pass lists it if and only if it is in processing,
comes to it once, and retires it if it is old enough by the clock that was read after the listing.  Nobody else moves or
removes it meanwhile, the queue does not track it, and no call of the pass fails.

Key facts: what the pass carries on from step to step (`Reclaim.Carries.step`), and what has become of the task when the
pass is over (`Reclaim.outcome`).
-/

namespace Backlog

/-- Tasks in ascending order of identifier. -/
abbrev Ascending (tasks : List Task) : Prop := tasks.Pairwise fun t t' => t.id < t'.id

namespace Dispatch

open Store

variable {fixed : Prop} {s : Settings} {b b' : Backend} {q q' : Queue} {t c : Task} {deed : Deed}

/-! ### The retirement of a task -/

/-- The task after its retirement. -/
def Retirement.retired (s : Settings) (t : Task) : Task :=
  { t with status := target s t, version := t.version + 1 }

theorem Retirement.applyTo_update (s : Settings) (t : Task) : (update s t).applyTo t = retired s t := by
  have hstatus : (update s t).status ≠ .processing := by
    show (if s.maxAttempts ≤ t.attempts then Status.failed else .pending) ≠ .processing
    split <;> exact fun h => by cases h
  unfold StatusUpdate.applyTo
  rw [if_neg hstatus]
  rfl

theorem Retirement.update_eq (h : t.Same fixed c) : update s c = update s t := by
  obtain ⟨text, -, rfl⟩ := h
  rfl

/-- An update that retires a task which is kept is made. -/
theorem Retirement.retains_retired (h : b.Retains fixed t) (same : t.Same fixed c) (room : t.HasRoom)
    (movable : t.status.canMoveTo (target s t) = true) (wall : Timestamp) :
    (b.perform wall (.updateStatus c.id (update s c))).2.Retains fixed (retired s t) := by
  rw [update_eq same, same.id]
  obtain ⟨_, ⟨text, htext, rfl⟩, hkept⟩ := h
  have hrefusal : (update s t).refusal? { t with text } = none := by
    show (if t.version ≠ t.version then _ else if t.status.canMoveTo (target s t) = true then _ else _) = _
    rw [if_neg fun hne => hne rfl, if_pos movable]
  obtain ⟨-, hkeeps⟩ := hkept.updateStatus ⟨room.least_le, room.lt_most, room.attempts_lt⟩ wall hrefusal
  rw [show ((update s t).adjusted b.timeOf).applyTo { t with text } = { (update s t).applyTo t with text } from rfl,
    applyTo_update] at hkeeps
  exact ⟨_, ⟨text, htext, rfl⟩, hkeeps⟩

/-! ### A listing by status -/

/-- A listing by status is in ascending order and shows a task that is kept if and only if the task has that status. -/
theorem listed_of_retains {a : Status} {wall : Timestamp} {ts : List Task} (h : b.Retains fixed t) (hb : b.Ordered)
    (small : t.attempts ≤ Row.mostAttempts) (answer : (b.perform wall (.listByStatus a)).1 = .ok ts) :
    Ascending ts ∧ if t.status = a then ∃ c ∈ ts, t.Same fixed c else ∀ c ∈ ts, c.id ≠ t.id := by
  obtain ⟨hasc, hlisted⟩ := hb.listed answer
  obtain ⟨_, ⟨text, htext, rfl⟩, hkept⟩ := h
  have hshown : b.shows { t with text } = { t with text } := b.shows_eq_self small
  obtain ⟨hin, honly⟩ := hlisted _ hkept
  rw [hshown] at hin honly
  refine ⟨hasc, ?_⟩
  split
  · rename_i hstatus
    exact ⟨_, hin hstatus, text, htext, rfl⟩
  · rename_i hstatus
    exact fun c hc hid => hstatus (honly c hc hid).2

/-! ### A task and the tasks that a pass has still to deal with -/

/-- Either a task stands among those that are still to be dealt with, as it was listed with a status, or it does not and
has become what it comes to. -/
inductive Treated (fixed : Prop) (a : Status) (t outcome : Task) (b : Backend) (ahead : List Task) : Prop where
  | ahead {c : Task} (mem : c ∈ ahead) (same : t.Same fixed c) (status : t.status = a) (kept : b.Retains fixed t)
  | behind (past : ∀ c ∈ ahead, c.id ≠ t.id) (kept : b.Retains fixed outcome)

namespace Treated

variable {a : Status} {outcome : Task} {rest : List Task}

theorem retain (h : Treated fixed a t outcome b rest) (hid : outcome.id = t.id)
    (keeps : ∀ u : Task, u.id = t.id → b.Retains fixed u → b'.Retains fixed u) : Treated fixed a t outcome b' rest := by
  cases h with
  | ahead mem same status kept => exact .ahead mem same status (keeps _ rfl kept)
  | behind past kept => exact .behind past (keeps _ hid kept)

/-- The first task is either another one, or the one that is followed. -/
theorem cases_cons (h : Treated fixed a t outcome b (c :: rest)) (hc : Ascending (c :: rest)) :
    (c.id ≠ t.id ∧ Treated fixed a t outcome b rest) ∨
      (t.Same fixed c ∧ t.status = a ∧ b.Retains fixed t ∧ ∀ d ∈ rest, d.id ≠ t.id) := by
  obtain ⟨hlt, -⟩ := List.pairwise_cons.1 hc
  cases h with
  | ahead mem same status kept =>
    rcases List.mem_cons.1 mem with rfl | mem
    · refine .inr ⟨same, status, kept, fun d hd hid => ?_⟩
      have hless := hlt d hd
      rw [same.id] at hless
      omega
    · refine .inl ⟨fun hid => ?_, .ahead mem same status kept⟩
      have hless := hlt _ mem
      rw [same.id] at hless
      omega
  | behind past kept => exact .inl ⟨past c (by simp), .behind (fun d hd => past d (by simp [hd])) kept⟩

end Treated

/-! ### The pass -/

namespace Reclaim

/-- What a pass with a threshold makes of a task at a moment. -/
def outcome (s : Settings) (threshold : Duration) (now : Timestamp) (t : Task) : Task :=
  if t.status = .processing ∧ isStale threshold now t = true then Retirement.retired s t else t

theorem outcome_id (s : Settings) (threshold : Duration) (now : Timestamp) (t : Task) :
    (outcome s threshold now t).id = t.id := by
  unfold outcome
  split <;> rfl

theorem outcome_attempts (s : Settings) (threshold : Duration) (now : Timestamp) (t : Task) :
    (outcome s threshold now t).attempts = t.attempts := by
  unfold outcome
  split <;> rfl

theorem outcome_status_iff (s : Settings) (threshold : Duration) (now : Timestamp) (t : Task) :
    (outcome s threshold now t).status = .processing ↔ t.status = .processing ∧ isStale threshold now t = false := by
  unfold outcome
  split
  · rename_i hold
    have htarget : Retirement.target s t ≠ .processing := by
      unfold Retirement.target
      split <;> exact fun h => by cases h
    refine ⟨fun h => absurd h htarget, fun h => ?_⟩
    rw [hold.2] at h
    cases h.2
  · rename_i hnot
    refine ⟨fun h => ⟨h, ?_⟩, fun h => h.1⟩
    exact Bool.eq_false_iff.2 fun hstale => hnot ⟨h, hstale⟩

/-- Every task is old enough for the empty threshold. -/
theorem isStale_zero (now : Timestamp) (t : Task) : isStale .zero now t = true := by
  unfold isStale
  cases t.startedAt with
  | none => rfl
  | some start =>
    dsimp only
    split
    · rfl
    · simp [Duration.zero]

theorem isStale_eq (threshold : Duration) (now : Timestamp) (h : t.Same fixed c) :
    isStale threshold now c = isStale threshold now t := by
  obtain ⟨text, -, rfl⟩ := h
  rfl

/-- What a pass with a threshold, which has read the wall clock at a moment, has done to a task and has still to do. -/
def Carries (fixed : Prop) (s : Settings) (threshold : Duration) (now : Timestamp) (t : Task) (b : Backend) :
    Reclaim → Prop
  | listing => b.Retains fixed t
  | dating tasks => Ascending tasks ∧ b.Retains fixed t ∧
    if t.status = .processing then ∃ c ∈ tasks, t.Same fixed c else ∀ c ∈ tasks, c.id ≠ t.id
  | guarding m task rest _ => m = now ∧ Ascending (task :: rest) ∧
    Treated fixed .processing t (outcome s threshold now t) b (task :: rest)
  | checking m task rest _ => m = now ∧ Ascending (task :: rest) ∧
    Treated fixed .processing t (outcome s threshold now t) b (task :: rest)
  | retiring m task rest _ .updating => m = now ∧ Ascending (task :: rest) ∧
    Treated fixed .processing t (outcome s threshold now t) b (task :: rest) ∧ isStale threshold now task = true
  | retiring m _ rest _ _ => m = now ∧ Ascending rest ∧ Treated fixed .processing t (outcome s threshold now t) b rest
  | done (.ok _) => b.Retains fixed (outcome s threshold now t)
  | done (.error _) => False

variable {threshold : Duration} {now : Timestamp} {pass pass' : Reclaim}

theorem Carries.retain (h : pass.Carries fixed s threshold now t b)
    (keeps : ∀ u : Task, u.id = t.id → b.Retains fixed u → b'.Retains fixed u) :
    pass.Carries fixed s threshold now t b' := by
  have hid := outcome_id s threshold now t
  cases pass with
  | listing => exact keeps t rfl h
  | dating tasks => exact ⟨h.1, keeps t rfl h.2.1, h.2.2⟩
  | guarding m task rest count => exact ⟨h.1, h.2.1, h.2.2.retain hid keeps⟩
  | checking m task rest count => exact ⟨h.1, h.2.1, h.2.2.retain hid keeps⟩
  | retiring m task rest count stage =>
    cases stage with
    | updating => exact ⟨h.1, h.2.1, h.2.2.1.retain hid keeps, h.2.2.2⟩
    | _ => exact ⟨h.1, h.2.1, h.2.2.retain hid keeps⟩
  | done result =>
    cases result with
    | ok count => exact keeps _ hid h
    | error e => exact h

private theorem carries_onward {rest : List Task} (count : Nat) (hrest : Ascending rest)
    (h : Treated fixed .processing t (outcome s threshold now t) b rest) :
    (onward now count rest).Carries fixed s threshold now t b := by
  cases rest with
  | nil =>
    cases h with
    | ahead mem same status kept => cases mem
    | behind past kept => exact kept
  | cons task rest => exact ⟨rfl, hrest, h⟩

/-- With the reading of the clock it is settled what becomes of the task. -/
theorem Carries.dated {tasks : List Task} (h : (dating tasks).Carries fixed s threshold now t b)
    (does : ((dating tasks).next s threshold).Does (dating tasks) deed pass') (met : deed.Met b q b' q') :
    ∃ read, deed = .readWallClock read ∧ b' = b ∧ pass'.Carries fixed s threshold read t b := by
  obtain ⟨hasc, hkept, hlisted⟩ := h
  cases does with
  | readWallClock read =>
    cases met with
    | acted noAsk fits =>
      refine ⟨read, rfl, rfl, carries_onward 0 hasc ?_⟩
      split at hlisted
      · rename_i hstatus
        obtain ⟨c, hc, hsame⟩ := hlisted
        exact .ahead hc hsame hstatus hkept
      · rename_i hstatus
        refine .behind hlisted ?_
        unfold outcome
        rw [if_neg fun h => hstatus h.1]
        exact hkept

/-- The next task is retired. -/
private theorem Carries.update {m : Timestamp} {task : Task} {rest : List Task} {count : Nat}
    (h : (retiring m task rest count .updating).Carries fixed s threshold now t b) (hb : b.Ordered)
    (room : t.status = .processing → t.HasRoom) (wall : Timestamp) :
    (retiring m task rest count .counting).Carries fixed s threshold now t
      (b.perform wall (.updateStatus task.id (Retirement.update s task))).2 := by
  obtain ⟨hm, hasc, htreated, hstale⟩ := h
  refine ⟨hm, (List.pairwise_cons.1 hasc).2, ?_⟩
  rcases htreated.cases_cons hasc with ⟨hne, hahead⟩ | ⟨hsame, hstatus, hkept, hpast⟩
  · refine hahead.retain (outcome_id s threshold now t) fun u hu hkeeps => hkeeps.perform hb wall ?_
    rw [hu]
    exact hne
  · -- the update retires the task that is followed
    have hmovable : t.status.canMoveTo (Retirement.target s t) = true := by
      unfold Retirement.target
      rw [hstatus]
      split <;> rfl
    have houtcome : outcome s threshold now t = Retirement.retired s t :=
      if_pos ⟨hstatus, (isStale_eq threshold now hsame).symm.trans hstale⟩
    rw [houtcome]
    exact .behind hpast (Retirement.retains_retired hkept hsame (room hstatus) hmovable wall)

/-- The next task is passed over. -/
private theorem Carries.skip {m : Timestamp} {task : Task} {rest : List Task} {count : Nat}
    (h : (checking m task rest count).Carries fixed s threshold now t b) (untracked : q.contains t.id = false)
    (kept : q.contains task.id = true ∨ isStale threshold m task = false) :
    (onward m count rest).Carries fixed s threshold now t b := by
  obtain ⟨rfl, hasc, htreated⟩ := h
  refine carries_onward count (List.pairwise_cons.1 hasc).2 ?_
  rcases htreated.cases_cons hasc with ⟨-, hahead⟩ | ⟨hsame, hstatus, hkept, hpast⟩
  · exact hahead
  · -- the task that is followed is not tracked, so it is young
    have hyoung : isStale threshold m t = false := by
      rcases kept with htracked | hyoung
      · rw [hsame.id, untracked] at htracked
        cases htracked
      · rwa [isStale_eq threshold m hsame] at hyoung
    have houtcome : outcome s threshold m t = t := if_neg fun hold => Bool.eq_false_iff.1 hyoung hold.2
    rw [houtcome]
    exact .behind hpast hkept

/-- A pass that has read the clock carries on with whatever it does, unless a call fails. -/
theorem Carries.step (h : pass.Carries fixed s threshold now t b) (hdated : ∀ tasks, pass ≠ dating tasks)
    (hb : b.Ordered) (small : t.attempts ≤ Row.mostAttempts) (room : t.status = .processing → t.HasRoom)
    (untracked : q.contains t.id = false) (does : (pass.next s threshold).Does pass deed pass')
    (met : deed.Met b q b' q') (calm : deed.isFailure = false) : pass'.Carries fixed s threshold now t b' := by
  cases Calm.of_does does met calm with
  | listed wall answer =>
    obtain ⟨hasc, hlisted⟩ := listed_of_retains h hb small answer
    exact ⟨hasc, h, hlisted⟩
  | dated read => exact absurd rfl (hdated _)
  | passed => exact h
  | chosen hnew hstale =>
    obtain ⟨rfl, hasc, htreated⟩ := h
    exact ⟨rfl, hasc, htreated, hstale⟩
  | skipped hstays => exact h.skip untracked hstays
  | retired hstage =>
    cases hstage with
    | updated wall answer => exact h.update hb room wall
    | counted => exact h
    | dated read => exact h
    | told read =>
      obtain ⟨rfl, hrest, htreated⟩ := h
      exact carries_onward _ hrest htreated

end Reclaim

end Dispatch

end Backlog

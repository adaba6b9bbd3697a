import Backlog.Proofs.Dispatch.Station

/-!
# Steps in which nothing fails

What a retirement, a pass of the reclaiming and a poll do while no call of the store fails and the token does not fire,
with the store and the queue before and after.

Key facts: nothing else can happen then (`Retirement.Calm.of_does`, `Reclaim.Calm.of_does`, `Poll.Calm.of_does`).
-/

namespace Backlog.Dispatch

open Store

variable {s : Settings} {b b' : Backend} {q q' : Queue} {deed : Deed}

/-- A retirement whose update is made. -/
inductive Retirement.Calm (s : Settings) (task : Task) (b : Backend) :
    Retirement → Deed → Backend → Retirement → Prop where
  | updated (wall : Timestamp) (answer : (b.perform wall (.updateStatus task.id (update s task))).1 = .ok ()) :
    Calm s task b updating (.ask (.updateStatus task.id (update s task)) (.ok ()))
      (b.perform wall (.updateStatus task.id (update s task))).2 counting
  | counted : Calm s task b counting (.record (count s task)) b dating
  | dated (now : Timestamp) : Calm s task b dating (.readWallClock now) b (announcing now)
  | told (now : Timestamp) :
    Calm s task b (announcing now) (.notify task.userId (.ofTask task (target s task) now)) b (done true)

theorem Retirement.Calm.of_does {task : Task} {stage stage' : Retirement}
    (does : (stage.next s task).Does stage deed stage') (met : deed.Met b q b' q') (calm : deed.isFailure = false) :
    stage.Calm s task b deed b' stage' := by
  cases stage with
  | updating =>
    cases does with
    | ask result =>
      obtain ⟨wall, a, rfl, answer, rfl, -⟩ := met.answer calm
      exact .updated wall answer
    | drop hy => cases hy
  | counting =>
    cases does with
    | record =>
      obtain ⟨-, rfl, -⟩ := met.deeds rfl
      exact .counted
  | dating =>
    cases does with
    | readWallClock now =>
      obtain ⟨-, rfl, -⟩ := met.deeds rfl
      exact .dated now
  | announcing now =>
    cases does with
    | notify =>
      obtain ⟨-, rfl, -⟩ := met.deeds rfl
      exact .told now
  | done moved => cases does

/-- A pass of the reclaiming that lists the tasks and retires those that are due. -/
inductive Reclaim.Calm (s : Settings) (threshold : Duration) (b : Backend) (q : Queue) :
    Reclaim → Deed → Backend → Reclaim → Prop where
  | listed (wall : Timestamp) {tasks : List Task}
      (answer : (b.perform wall (.listByStatus .processing)).1 = .ok tasks) :
    Calm s threshold b q listing (.ask (.listByStatus .processing) (.ok tasks)) b (dating tasks)
  | dated (now : Timestamp) {tasks : List Task} :
    Calm s threshold b q (dating tasks) (.readWallClock now) b (onward now 0 tasks)
  | passed {now : Timestamp} {task : Task} {rest : List Task} {count : Nat} :
    Calm s threshold b q (guarding now task rest count) (.see false) b (checking now task rest count)
  | chosen {now : Timestamp} {task : Task} {rest : List Task} {count : Nat} (untracked : q.contains task.id = false)
      (stale : isStale threshold now task = true) :
    Calm s threshold b q (checking now task rest count) (.look task.id false) b (retiring now task rest count .updating)
  | skipped {now : Timestamp} {task : Task} {rest : List Task} {count : Nat}
      (kept : q.contains task.id = true ∨ isStale threshold now task = false) :
    Calm s threshold b q (checking now task rest count) (.look task.id (q.contains task.id)) b (onward now count rest)
  | retired {now : Timestamp} {task : Task} {rest : List Task} {count : Nat} {stage stage' : Retirement} {deed : Deed}
      {b' : Backend} (h : stage.Calm s task b deed b' stage') :
    Calm s threshold b q (retiring now task rest count stage) deed b' (afterRetirement now task rest count stage')

theorem Reclaim.Calm.of_does {threshold : Duration} {pass pass' : Reclaim}
    (does : (pass.next s threshold).Does pass deed pass') (met : deed.Met b q b' q') (calm : deed.isFailure = false) :
    pass.Calm s threshold b q deed b' pass' := by
  cases pass with
  | listing =>
    cases does with
    | ask result =>
      obtain ⟨rfl, -, wall, tasks, rfl, answer⟩ := met.listed calm
      exact .listed wall answer
    | drop hy =>
      obtain ⟨fits, -⟩ := met.deeds rfl
      cases fits
  | dating tasks =>
    cases does with
    | readWallClock now =>
      obtain ⟨-, rfl, -⟩ := met.deeds rfl
      exact .dated now
  | guarding now task rest count =>
    cases does with
    | see cancelled =>
      obtain ⟨fits, rfl, -⟩ := met.deeds rfl
      obtain rfl : cancelled = false := fits
      exact .passed
  | checking now task rest count =>
    cases does with
    | look tracked =>
      obtain ⟨fits, rfl, -⟩ := met.deeds rfl
      have htracked : tracked = q.contains task.id := fits
      dsimp only
      split
      · rename_i hgo
        simp only [Bool.and_eq_true, Bool.not_eq_true'] at hgo
        obtain ⟨rfl, hstale⟩ := hgo
        exact .chosen htracked.symm hstale
      · rename_i hstays
        rw [htracked] at hstays ⊢
        refine .skipped ?_
        simpa [or_iff_not_imp_left] using hstays
  | retiring now task rest count stage =>
    obtain ⟨stage', hdoes, rfl⟩ := does_retiring does
    exact .retired (.of_does hdoes met calm)
  | done result => cases does

/-- A poll that lists the tasks, retires those that have used up their attempts and hands over the others. -/
inductive Poll.Calm (s : Settings) (b : Backend) (q : Queue) : Poll → Deed → Backend → Queue → Poll → Prop where
  | started : Calm s b q starting (.record .poll) b q listing
  | listed (wall : Timestamp) {tasks : List Task} (answer : (b.perform wall (.listByStatus .pending)).1 = .ok tasks) :
    Calm s b q listing (.ask (.listByStatus .pending) (.ok tasks)) b q (onward 0 tasks)
  | failed {e : StoreError} : Calm s b q (failing e) (.record .pollError) b q (done (.error e))
  | skipped {task : Task} {rest : List Task} {count : Nat} (tracked : q.contains task.id = true) :
    Calm s b q (checking task rest count) (.look task.id true) b q (onward count rest)
  | spent {task : Task} {rest : List Task} {count : Nat} (untracked : q.contains task.id = false)
      (many : s.maxAttempts ≤ task.attempts) :
    Calm s b q (checking task rest count) (.look task.id false) b q (retiring task rest count .updating)
  | chosen {task : Task} {rest : List Task} {count : Nat} (untracked : q.contains task.id = false)
      (few : task.attempts < s.maxAttempts) :
    Calm s b q (checking task rest count) (.look task.id false) b q (enqueueing task rest count .tracking)
  | retired {task : Task} {rest : List Task} {count : Nat} {stage stage' : Retirement} {deed : Deed} {b' : Backend}
      (h : stage.Calm s task b deed b' stage') :
    Calm s b q (retiring task rest count stage) deed b' q (afterRetirement task rest count stage')
  | tracked (now : Timestamp) {task : Task} {rest : List Task} {count : Nat} :
    Calm s b q (enqueueing task rest count .tracking) (.track now task) b (q.track now task)
      (enqueueing task rest count .sending)
  | joined {task : Task} {rest : List Task} {count : Nat} (waits : q.channel.maySend 0 = false)
      (new : 0 ∉ q.channel.senders) :
    Calm s b q (enqueueing task rest count .sending) .join b { q with channel := q.channel.join 0 }
      (enqueueing task rest count .sending)
  | sent {task : Task} {rest : List Task} {count : Nat} (may : q.channel.maySend 0 = true) :
    Calm s b q (enqueueing task rest count .sending) (.send task) b { q with channel := q.channel.send 0 task }
      (counting rest (count + 1))
  | withdrawn {task : Task} {rest : List Task} {count : Nat} :
    Calm s b q (enqueueing task rest count .withdrawing) (.untrack task.id (q.contains task.id)) b (q.untrack task.id).2
      (done (.ok count))
  | counted {rest : List Task} {count : Nat} :
    Calm s b q (counting rest count) (.record .enqueued) b q (onward count rest)

theorem Poll.Calm.of_does {poll poll' : Poll} (does : (poll.next s).Does poll deed poll') (met : deed.Met b q b' q')
    (calm : deed.isFailure = false) : poll.Calm s b q deed b' q' poll' := by
  cases poll with
  | starting =>
    cases does with
    | record =>
      obtain ⟨-, rfl, rfl⟩ := met.deeds rfl
      exact .started
  | listing =>
    cases does with
    | ask result =>
      obtain ⟨rfl, rfl, wall, tasks, rfl, answer⟩ := met.listed calm
      exact .listed wall answer
    | drop hy =>
      obtain ⟨fits, -⟩ := met.deeds rfl
      cases fits
  | failing e =>
    cases does with
    | record =>
      obtain ⟨-, rfl, rfl⟩ := met.deeds rfl
      exact .failed
  | checking task rest count =>
    cases does with
    | look tracked =>
      obtain ⟨fits, rfl, rfl⟩ := met.deeds rfl
      have htracked : tracked = q.contains task.id := fits
      cases tracked with
      | true => exact .skipped htracked.symm
      | false =>
        unfold afterCheck
        rw [if_neg Bool.false_ne_true]
        split
        · rename_i many
          exact .spent htracked.symm many
        · rename_i few
          exact .chosen htracked.symm (Nat.not_le.1 few)
  | retiring task rest count stage =>
    obtain ⟨stage', hdoes, rfl⟩ := does_retiring does
    obtain rfl := met.queue_of_isAside (Retirement.isAside_of_does hdoes)
    exact .retired (.of_does hdoes met calm)
  | enqueueing task rest count stage =>
    obtain ⟨stage', hdoes, rfl⟩ := does_enqueueing does
    cases stage with
    | tracking =>
      cases hdoes with
      | track now =>
        obtain ⟨-, rfl, rfl⟩ := met.deeds rfl
        exact .tracked now
    | sending =>
      cases hdoes with
      | join =>
        obtain ⟨⟨waits, new⟩, rfl, rfl⟩ := met.deeds rfl
        exact .joined waits new
      | send =>
        obtain ⟨fits, rfl, rfl⟩ := met.deeds rfl
        exact .sent fits
      | leave hy =>
        obtain ⟨fits, -⟩ := met.deeds rfl
        cases fits
    | withdrawing =>
      cases hdoes with
      | untrack tracked =>
        obtain ⟨fits, rfl, rfl⟩ := met.deeds rfl
        obtain rfl : tracked = q.contains task.id := fits
        exact .withdrawn
    | done sent => cases hdoes
  | counting rest count =>
    cases does with
    | record =>
      obtain ⟨-, rfl, rfl⟩ := met.deeds rfl
      exact .counted
  | done result => cases does

end Backlog.Dispatch

import Backlog.Proofs.Dispatch.Calm
import Backlog.Proofs.Dispatch.Reclaiming
import Backlog.Proofs.Store.Retiring

/-!
# How far a poll has come

A poll works alone on its store, while others take tasks out of the channel.  It goes through the tasks that it has
listed one by one, and what has come of it depends on nothing but the tasks that it is past: it skips those that the
queue tracked before, retires those of the others that have used up their attempts, and hands over the rest.

Key facts: where a poll stands says what has come of it (`Poll.Stands`), and both go on together with every step that
does not fail (`Poll.Stands.step`).
-/

namespace Backlog.Dispatch

open Store

variable {s : Settings} {q : Queue} {t : Tally} {task : Task} {past rest ts : List Task}

theorem Retirement.update_of_many (many : s.maxAttempts ≤ task.attempts) : update s task = task.failure := by
  unfold update target Task.failure
  rw [if_pos many]

theorem Retirement.count_of_many (many : s.maxAttempts ≤ task.attempts) : count s task = .deadLettered := by
  unfold count target
  rw [if_pos many, if_pos rfl]

namespace Poll

/-! ### What becomes of the listed tasks -/

/-- The listed tasks that a poll hands over: the queue did not track them, and they have attempts left. -/
def handed (s : Settings) (q : Queue) (ts : List Task) : List Task :=
  ts.filter fun c => !q.contains c.id && decide (c.attempts < s.maxAttempts)

/-- The listed tasks that a poll retires: the queue did not track them, and they have used up their attempts. -/
def spent (s : Settings) (q : Queue) (ts : List Task) : List Task :=
  ts.filter fun c => !q.contains c.id && decide (s.maxAttempts ≤ c.attempts)

private theorem concat_of_tracked (s : Settings) (past : List Task) (tracked : q.contains task.id = true) :
    handed s q (past ++ [task]) = handed s q past ∧ spent s q (past ++ [task]) = spent s q past := by
  simp [handed, spent, tracked]

private theorem concat_of_many (past : List Task) (untracked : q.contains task.id = false)
    (many : s.maxAttempts ≤ task.attempts) :
    handed s q (past ++ [task]) = handed s q past ∧ spent s q (past ++ [task]) = spent s q past ++ [task] := by
  have hnotFew : ¬ task.attempts < s.maxAttempts := Nat.not_lt.2 many
  simp [handed, spent, untracked, many, hnotFew]

private theorem concat_of_few (past : List Task) (untracked : q.contains task.id = false)
    (few : task.attempts < s.maxAttempts) :
    handed s q (past ++ [task]) = handed s q past ++ [task] ∧ spent s q (past ++ [task]) = spent s q past := by
  have hnotMany : ¬ s.maxAttempts ≤ task.attempts := Nat.not_le.2 few
  simp [handed, spent, untracked, few, hnotMany]

/-- Every listed task that the queue did not track is handed over or retired. -/
theorem mem_handed_or_spent (hc : task ∈ ts) (untracked : q.contains task.id = false) :
    task ∈ handed s q ts ∨ task ∈ spent s q ts := by
  by_cases few : task.attempts < s.maxAttempts
  · exact .inl (List.mem_filter.2 ⟨hc, by simp [untracked, few]⟩)
  · exact .inr (List.mem_filter.2 ⟨hc, by simp [untracked, Nat.not_lt.1 few]⟩)

/-! ### Progress -/

/-- What has come of a poll so far: the tasks that it has retired, that it has made the queue track and that it has
sent, and what is counted then. -/
structure Progress where
  retired : List Task
  tracked : List Task
  sent : List Task
  tally : Tally

namespace Progress

/-- What has come of a poll that has done nothing but count. -/
def counted (t : Tally) : Progress := ⟨[], [], [], t⟩

/-- What has come of a poll that is past some of the listed tasks; before it the queue and the counters were these. -/
def upTo (s : Settings) (q : Queue) (t : Tally) (past : List Task) : Progress where
  retired := spent s q past
  tracked := handed s q past
  sent := handed s q past
  tally :=
    { t with
      polls := t.polls + 1
      enqueued := t.enqueued + (handed s q past).length
      deadLettered := t.deadLettered + (spent s q past).length }

theorem upTo_of_tracked (tracked : q.contains task.id = true) : upTo s q t (past ++ [task]) = upTo s q t past := by
  obtain ⟨hhanded, hspent⟩ := concat_of_tracked s past tracked
  unfold upTo
  rw [hhanded, hspent]

/-- The next task has been retired and counted. -/
theorem upTo_of_many (untracked : q.contains task.id = false) (many : s.maxAttempts ≤ task.attempts) :
    upTo s q t (past ++ [task]) =
      { upTo s q t past with
        retired := spent s q past ++ [task], tally := (upTo s q t past).tally.record .deadLettered } := by
  obtain ⟨hhanded, hspent⟩ := concat_of_many past untracked many
  unfold upTo
  rw [hhanded, hspent, List.length_append]
  rfl

/-- The next task has been handed over and counted. -/
theorem upTo_of_few (untracked : q.contains task.id = false) (few : task.attempts < s.maxAttempts) :
    upTo s q t (past ++ [task]) =
      { upTo s q t past with
        tracked := handed s q past ++ [task], sent := handed s q past ++ [task]
        tally := (upTo s q t past).tally.record .enqueued } := by
  obtain ⟨hhanded, hspent⟩ := concat_of_few past untracked few
  unfold upTo
  rw [hhanded, hspent, List.length_append]
  rfl

end Progress

/-- Where a poll stands among the tasks that it has listed, and what has come of it. -/
inductive Stands (s : Settings) (q : Queue) (t : Tally) (ts : List Task) : Poll → Progress → Prop where
  | checking {past : List Task} {task : Task} {rest : List Task} (cut : ts = past ++ task :: rest) :
    Stands s q t ts (checking task rest (handed s q past).length) (.upTo s q t past)
  | updating {past : List Task} {task : Task} {rest : List Task} (cut : ts = past ++ task :: rest)
      (untracked : q.contains task.id = false) (many : s.maxAttempts ≤ task.attempts) :
    Stands s q t ts (retiring task rest (handed s q past).length .updating) (.upTo s q t past)
  | burying {past : List Task} {task : Task} {rest : List Task} (cut : ts = past ++ task :: rest)
      (untracked : q.contains task.id = false) (many : s.maxAttempts ≤ task.attempts) :
    Stands s q t ts (retiring task rest (handed s q past).length .counting)
      { Progress.upTo s q t past with retired := spent s q past ++ [task] }
  | telling {past : List Task} {task : Task} {rest : List Task} {stage : Retirement} (cut : ts = past ++ task :: rest)
      (untracked : q.contains task.id = false) (many : s.maxAttempts ≤ task.attempts)
      (counted : stage = .dating ∨ ∃ now, stage = .announcing now) :
    Stands s q t ts (retiring task rest (handed s q past).length stage) (.upTo s q t (past ++ [task]))
  | tracking {past : List Task} {task : Task} {rest : List Task} (cut : ts = past ++ task :: rest)
      (untracked : q.contains task.id = false) (few : task.attempts < s.maxAttempts) :
    Stands s q t ts (enqueueing task rest (handed s q past).length .tracking) (.upTo s q t past)
  | sending {past : List Task} {task : Task} {rest : List Task} (cut : ts = past ++ task :: rest)
      (untracked : q.contains task.id = false) (few : task.attempts < s.maxAttempts) :
    Stands s q t ts (enqueueing task rest (handed s q past).length .sending)
      { Progress.upTo s q t past with tracked := handed s q past ++ [task] }
  | counting {past : List Task} {task : Task} {rest : List Task} (cut : ts = past ++ task :: rest)
      (untracked : q.contains task.id = false) (few : task.attempts < s.maxAttempts) :
    Stands s q t ts (counting rest ((handed s q past).length + 1))
      { Progress.upTo s q t past with
        tracked := handed s q past ++ [task], sent := handed s q past ++ [task] }
  | done : Stands s q t ts (done (.ok (handed s q ts).length)) (.upTo s q t ts)

theorem stands_onward {p : Progress} {count : Nat} (cut : ts = past ++ rest) (hp : p = .upTo s q t past)
    (hcount : count = p.sent.length) : (onward count rest).Stands s q t ts p := by
  subst hp hcount
  cases rest with
  | nil =>
    rw [List.append_nil] at cut
    rw [← cut]
    exact .done
  | cons task rest => exact .checking cut

end Poll

end Backlog.Dispatch

import Backlog.Proofs.Dispatch.Reclaiming
import Backlog.Proofs.Interleaving.Holding

/-!
# What a poll does to a task

One task is followed through a poll that finds the register of the queue empty.  The poll lists it if and only if it
waits, comes to it once, and either hands it over or, if it has used up its attempts, retires it.  Nobody else moves or
removes it meanwhile, and no call of the poll fails.

Key facts: what has been handed over and what is still ahead stay in ascending order, each task in one of the two
(`Poll.Going`), and what the poll carries on from step to step (`Poll.Carries.step`).
-/

namespace Backlog.Dispatch

open Store

variable {fixed : Prop} {s : Settings} {b b' : Backend} {q q' : Queue} {t task : Task} {deed : Deed}
  {sent ahead rest : List Task}

/-- The queue tracks none of the tasks. -/
def Clear (q : Queue) (tasks : List Task) : Prop := ∀ c ∈ tasks, q.contains c.id = false

namespace Poll

private theorem append_sent (h : deed.sent? = none) : sent ++ deed.sent?.toList = sent := by
  rw [h]
  exact List.append_nil _

/-- What a poll has handed over and what it has listed and not dealt with stand in ascending order. -/
def InOrder (sent : List Task) : Poll → Prop
  | starting => sent = []
  | listing => sent = []
  | poll => Ascending (sent ++ poll.held)

private theorem inOrder_onward (count : Nat) (h : Ascending (sent ++ rest)) : (onward count rest).InOrder sent := by
  cases rest <;> exact h

theorem InOrder.step {poll poll' : Poll} (h : poll.InOrder sent) (hb : b.Ordered)
    (does : (poll.next s).Does poll deed poll') (met : deed.Met b q b' q') :
    poll'.InOrder (sent ++ deed.sent?.toList) := by
  have hpast {task : Task} {rest : List Task} (h : Ascending (sent ++ task :: rest)) : Ascending (sent ++ rest) :=
    h.sublist ((List.sublist_cons_self task rest).append_left sent)
  cases poll with
  | starting =>
    cases does with
    | record =>
      rw [append_sent rfl]
      exact h
  | listing =>
    obtain rfl : sent = [] := h
    cases does with
    | ask result =>
      cases result with
      | error e => exact .nil
      | ok ts =>
        obtain ⟨-, -, wall, ts', hts, answer⟩ := met.listed rfl
        cases hts
        exact inOrder_onward 0 (hb.listed answer).1
    | drop hy =>
      cases hy
      exact .nil
  | failing e =>
    cases does with
    | record =>
      rw [append_sent rfl]
      exact h
  | checking task rest count =>
    cases does with
    | look tracked =>
      rw [append_sent rfl]
      unfold afterCheck
      split
      · exact inOrder_onward count (hpast h)
      · split <;> exact h
  | retiring task rest count stage =>
    obtain ⟨stage', hdoes, rfl⟩ := does_retiring does
    rw [append_sent (by cases stage <;> cases hdoes <;> rfl)]
    cases stage' with
    | done moved => exact inOrder_onward count (hpast h)
    | _ => exact h
  | enqueueing task rest count stage =>
    obtain ⟨stage', hdoes, rfl⟩ := does_enqueueing does
    cases stage with
    | tracking =>
      cases hdoes with
      | track now =>
        rw [append_sent rfl]
        exact h
    | sending =>
      cases hdoes with
      | join =>
        rw [append_sent rfl]
        exact h
      | send =>
        show Ascending (sent ++ [task] ++ rest)
        rw [List.append_assoc]
        exact h
      | leave hy =>
        cases hy
        rw [append_sent rfl]
        exact h
    | withdrawing =>
      cases hdoes with
      | untrack tracked =>
        rw [append_sent rfl]
        exact h.sublist ((List.nil_sublist _).append_left sent)
    | done sent => cases hdoes
  | counting rest count =>
    cases does with
    | record =>
      rw [append_sent rfl]
      exact inOrder_onward count h
  | done result => cases does

/-- What a poll makes of a task. -/
def outcome (s : Settings) (t : Task) : Task :=
  if t.status = .pending ∧ s.maxAttempts ≤ t.attempts then Retirement.retired s t else t

theorem outcome_id (s : Settings) (t : Task) : (outcome s t).id = t.id := by
  unfold outcome
  split <;> rfl

/-- How far a poll has come with a task when it has handed over some tasks and has others still ahead. -/
structure Going (fixed : Prop) (s : Settings) (t : Task) (b : Backend) (sent ahead : List Task) : Prop where
  treated : Treated fixed .pending t (outcome s t) b ahead
  handed : if t.status = .pending ∧ t.attempts < s.maxAttempts then ∃ c ∈ sent ++ ahead, t.Same fixed c
    else ∀ c ∈ sent, c.id ≠ t.id

theorem Going.retain (h : Going fixed s t b sent ahead)
    (keeps : ∀ u : Task, u.id = t.id → b.Retains fixed u → b'.Retains fixed u) : Going fixed s t b' sent ahead :=
  { h with treated := h.treated.retain (outcome_id s t) keeps }

/-- The next task is handed over. -/
theorem Going.hand (h : Going fixed s t b sent (task :: rest)) (order : Ascending (task :: rest))
    (few : task.attempts < s.maxAttempts) : Going fixed s t b (sent ++ [task]) rest := by
  have hmoved : sent ++ [task] ++ rest = sent ++ task :: rest := (List.append_cons sent task rest).symm
  have hcases := h.treated.cases_cons order
  refine ⟨?_, ?_⟩
  · rcases hcases with ⟨-, hahead⟩ | ⟨hsame, -, hkept, hpast⟩
    · exact hahead
    · -- the task that is followed is not retired
      refine .behind hpast ?_
      rw [hsame.attempts] at few
      unfold outcome
      rw [if_neg fun hmany => Nat.not_le.2 few hmany.2]
      exact hkept
  · have hhanded := h.handed
    split at hhanded
    · rename_i hdue
      rw [if_pos hdue, hmoved]
      exact hhanded
    · rename_i hdue
      rw [if_neg hdue]
      intro c hc
      rcases List.mem_append.1 hc with hc | hc
      · exact hhanded c hc
      · obtain rfl := List.mem_singleton.1 hc
        rcases hcases with ⟨hne, -⟩ | ⟨hsame, hstatus, -, -⟩
        · exact hne
        · rw [hsame.attempts] at few
          exact absurd ⟨hstatus, few⟩ hdue

/-- The next task is retired. -/
theorem Going.retire (h : Going fixed s t b sent (task :: rest)) (order : Ascending (task :: rest))
    (many : s.maxAttempts ≤ task.attempts) (hb : b.Ordered)
    (room : t.status = .pending → s.maxAttempts ≤ t.attempts → t.HasRoom) (wall : Timestamp) :
    Going fixed s t (b.perform wall (.updateStatus task.id (Retirement.update s task))).2 sent rest := by
  refine ⟨?_, ?_⟩
  · rcases h.treated.cases_cons order with ⟨hne, hahead⟩ | ⟨hsame, hstatus, hkept, hpast⟩
    · refine hahead.retain (outcome_id s t) fun u hu hkeeps => hkeeps.perform hb wall ?_
      rw [hu]
      exact hne
    · have hmany : s.maxAttempts ≤ t.attempts := by
        rw [← hsame.attempts]
        exact many
      have hmovable : t.status.canMoveTo (Retirement.target s t) = true := by
        unfold Retirement.target
        rw [hstatus, if_pos hmany]
        rfl
      have houtcome : outcome s t = Retirement.retired s t := if_pos ⟨hstatus, hmany⟩
      rw [houtcome]
      exact .behind hpast (Retirement.retains_retired hkept hsame (room hstatus hmany) hmovable wall)
  · have hhanded := h.handed
    split at hhanded
    · rename_i hdue
      rw [if_pos hdue]
      obtain ⟨c, hc, hsame⟩ := hhanded
      refine ⟨c, ?_, hsame⟩
      rcases List.mem_append.1 hc with hc | hc
      · exact List.mem_append_left _ hc
      · rcases List.mem_cons.1 hc with rfl | hc
        · -- a task that has used up its attempts is not the one that is followed
          rw [hsame.attempts] at many
          exact absurd many (Nat.not_le.2 hdue.2)
        · exact List.mem_append_right _ hc
    · rename_i hdue
      rw [if_neg hdue]
      exact hhanded

/-- How a poll stands with a task, with the queue and with the tasks that it has handed over. -/
def Carries (fixed : Prop) (s : Settings) (t : Task) (b : Backend) (q : Queue) (sent : List Task) : Poll → Prop
  | starting => sent = [] ∧ q.entries = [] ∧ b.Retains fixed t
  | listing => sent = [] ∧ q.entries = [] ∧ b.Retains fixed t
  | failing _ => False
  | checking task rest _ => Clear q (task :: rest) ∧ Going fixed s t b sent (task :: rest)
  | retiring task rest _ .updating =>
    s.maxAttempts ≤ task.attempts ∧ Clear q rest ∧ Going fixed s t b sent (task :: rest)
  | retiring _ rest _ _ => Clear q rest ∧ Going fixed s t b sent rest
  | enqueueing _ _ _ .withdrawing => False
  | enqueueing _ _ _ (.done _) => False
  | enqueueing task rest _ _ =>
    task.attempts < s.maxAttempts ∧ Clear q rest ∧ Going fixed s t b sent (task :: rest)
  | counting rest _ => Clear q rest ∧ Going fixed s t b sent rest
  | done (.ok _) => Going fixed s t b sent []
  | done (.error _) => False

variable {poll poll' : Poll}

private theorem carries_onward (count : Nat) (clear : Clear q rest) (h : Going fixed s t b sent rest) :
    (onward count rest).Carries fixed s t b q sent := by
  cases rest with
  | nil => exact h
  | cons task rest => exact ⟨clear, h⟩

private theorem Clear.tail (h : Clear q (task :: rest)) : Clear q rest := fun c hc => h c (List.mem_cons_of_mem _ hc)

/-- Others, who put nothing into the queue, let a poll carry on. -/
theorem Carries.retain (h : poll.Carries fixed s t b q sent)
    (keeps : ∀ u : Task, u.id = t.id → b.Retains fixed u → b'.Retains fixed u)
    (empty : q.entries = [] → q'.entries = []) (clear : ∀ id, q.contains id = false → q'.contains id = false) :
    poll.Carries fixed s t b' q' sent := by
  have hclear {tasks : List Task} (h : Clear q tasks) : Clear q' tasks := fun c hc => clear c.id (h c hc)
  cases poll with
  | starting => exact ⟨h.1, empty h.2.1, keeps t rfl h.2.2⟩
  | listing => exact ⟨h.1, empty h.2.1, keeps t rfl h.2.2⟩
  | failing e => exact h
  | checking task rest count => exact ⟨hclear h.1, h.2.retain keeps⟩
  | retiring task rest count stage =>
    cases stage with
    | updating => exact ⟨h.1, hclear h.2.1, h.2.2.retain keeps⟩
    | _ => exact ⟨hclear h.1, h.2.retain keeps⟩
  | enqueueing task rest count stage =>
    cases stage with
    | withdrawing => exact h
    | done sent => exact h
    | _ => exact ⟨h.1, hclear h.2.1, h.2.2.retain keeps⟩
  | counting rest count => exact ⟨hclear h.1, h.2.retain keeps⟩
  | done result =>
    cases result with
    | ok count => exact Going.retain h keeps
    | error e => exact h

/-- The listing of a poll. -/
private theorem Carries.list {wall : Timestamp} {ts : List Task} (h : listing.Carries fixed s t b q sent)
    (hb : b.Ordered) (small : t.attempts ≤ Row.mostAttempts)
    (answer : (b.perform wall (.listByStatus .pending)).1 = .ok ts) :
    (onward 0 ts).Carries fixed s t b q sent := by
  obtain ⟨rfl, hempty, hkept⟩ := h
  obtain ⟨-, hlisted⟩ := listed_of_retains hkept hb small answer
  refine carries_onward 0 (fun c _ => Queue.contains_of_entries_eq_nil hempty c.id) ⟨?_, ?_⟩
  · split at hlisted
    · rename_i hstatus
      obtain ⟨c, hc, hsame⟩ := hlisted
      exact .ahead hc hsame hstatus hkept
    · rename_i hstatus
      refine .behind hlisted ?_
      unfold outcome
      rw [if_neg fun h => hstatus h.1]
      exact hkept
  · split
    · rename_i hdue
      rwa [if_pos hdue.1] at hlisted
    · exact fun c hc => by cases hc

/-- A poll carries on with whatever it does, unless a call fails. -/
theorem Carries.step (h : poll.Carries fixed s t b q sent) (order : poll.InOrder sent) (hb : b.Ordered)
    (small : t.attempts ≤ Row.mostAttempts)
    (room : t.status = .pending → s.maxAttempts ≤ t.attempts → t.HasRoom) (does : (poll.next s).Does poll deed poll')
    (met : deed.Met b q b' q') (calm : deed.isFailure = false) :
    poll'.Carries fixed s t b' q' (sent ++ deed.sent?.toList) := by
  cases Calm.of_does does met calm with
  | started =>
    rw [append_sent rfl]
    exact h
  | listed wall answer =>
    rw [append_sent rfl]
    exact h.list hb small answer
  | failed => exact h.elim
  | skipped tracked =>
    rw [h.1 _ List.mem_cons_self] at tracked
    cases tracked
  | spent untracked many =>
    rw [append_sent rfl]
    exact ⟨many, Clear.tail h.1, h.2⟩
  | chosen untracked few =>
    rw [append_sent rfl]
    exact ⟨few, Clear.tail h.1, h.2⟩
  | retired hstage =>
    cases hstage with
    | updated wall answer =>
      obtain ⟨hmany, hclear, hgoing⟩ := h
      rw [append_sent rfl]
      exact ⟨hclear, hgoing.retire (List.pairwise_append.1 order).2.1 hmany hb room wall⟩
    | counted =>
      rw [append_sent rfl]
      exact h
    | dated read =>
      rw [append_sent rfl]
      exact h
    | told read =>
      rw [append_sent rfl]
      exact carries_onward _ h.1 h.2
  | @tracked now task rest count =>
    obtain ⟨hfew, hclear, hgoing⟩ := h
    have hlater := (List.pairwise_cons.1 (List.pairwise_append.1 order).2.1).1
    have htracked : Clear (q.track now task) rest := by
      intro d hd
      show ((Deed.track now task).onQueue 0 q).contains d.id = false
      refine Deed.contains_onQueue (hclear d hd) 0 ?_
      rintro now' task' ⟨⟩
      exact Int.ne_of_lt (hlater d hd)
    rw [append_sent rfl]
    exact ⟨hfew, htracked, hgoing⟩
  | joined waits new =>
    rw [append_sent rfl]
    exact h
  | sent may =>
    obtain ⟨hfew, hclear, hgoing⟩ := h
    exact ⟨hclear, hgoing.hand (List.pairwise_append.1 order).2.1 hfew⟩
  | withdrawn => exact h.elim
  | counted =>
    rw [append_sent rfl]
    exact carries_onward _ h.1 h.2

end Poll

end Backlog.Dispatch

import Backlog.Proofs.Dispatch.Deed

/-!
# What the dispatcher has before it

In a tick the dispatcher lists tasks twice, those in processing and those that wait, and goes through each listing from
its beginning.  It asks the queue for a task, and a task that is not tracked it retires or hands over; whatever it has
dealt with or passed over it does not come back to.

Key facts: whatever the dispatcher does takes it from one outlook to the next in one of a few ways
(`Dispatcher.turns_of_does`): only from an outlook that says so does it make an update, and only from another one that
says so does it make the queue track a task.
-/

namespace Backlog.Dispatch

open Store

/-- What the dispatcher is about to do with the first task that is left. -/
inductive Plan where
  | undecided
  /-- It makes the update that retires the task. -/
  | retire
  /-- It makes the queue track the task. -/
  | track
deriving DecidableEq

/-- What the dispatcher has before it: the status with which it has listed tasks, the tasks that are left, and what it
is about to do with the first of them. -/
structure Outlook where
  status : Status
  ahead : List Task
  plan : Plan

namespace Outlook

/-- Nothing is before the dispatcher. -/
def idle : Outlook := ⟨.pending, [], .undecided⟩

/-- Tasks are left that were listed with a status, and nothing is decided. -/
def left (a : Status) : List Task → Outlook
  | [] => idle
  | task :: rest => ⟨a, task :: rest, .undecided⟩

theorem ahead_left (a : Status) (rest : List Task) : (left a rest).ahead = rest := by cases rest <;> rfl

theorem status_left {a : Status} {rest : List Task} {task : Task} (h : task ∈ rest) : (left a rest).status = a := by
  cases rest with
  | nil => cases h
  | cons task rest => rfl

theorem plan_left (a : Status) (rest : List Task) : (left a rest).plan = .undecided := by cases rest <;> rfl

end Outlook

/-- What a pass of the reclaiming has before it. -/
def Reclaim.outlook : Reclaim → Outlook
  | dating tasks => .left .processing tasks
  | guarding _ task rest _ => .left .processing (task :: rest)
  | checking _ task rest _ => .left .processing (task :: rest)
  | retiring _ task rest _ .updating => ⟨.processing, task :: rest, .retire⟩
  | retiring _ _ rest _ _ => .left .processing rest
  | _ => .idle

/-- What a poll has before it. -/
def Poll.outlook : Poll → Outlook
  | checking task rest _ => .left .pending (task :: rest)
  | retiring task rest _ .updating => ⟨.pending, task :: rest, .retire⟩
  | retiring _ rest _ _ => .left .pending rest
  | enqueueing task rest _ .tracking => ⟨.pending, task :: rest, .track⟩
  | enqueueing _ rest _ _ => .left .pending rest
  | counting rest _ => .left .pending rest
  | _ => .idle

/-- What the dispatcher has before it. -/
def Dispatcher.outlook : Dispatcher → Outlook
  | reclaiming _ _ pass => pass.outlook
  | polling _ poll => poll.outlook
  | _ => .idle

/-- Whether a deed neither updates a status nor makes the queue track a task. -/
def Deed.isQuiet : Deed → Bool
  | ask (.updateStatus _ _) _ => false
  | drop (.updateStatus _ _) => false
  | track _ _ => false
  | _ => true

/-- How the dispatcher comes from one outlook to the next: it lists tasks; it looks at the first one, which is not
tracked, and decides to retire it or to have it tracked; it does so; or it goes on and leaves no trace. -/
inductive Outlook.Turns (s : Settings) : Outlook → Deed → Outlook → Prop where
  | list (a : Status) (ts : List Task) : Turns s .idle (.ask (.listByStatus a) (.ok ts)) (left a ts)
  | condemn {a : Status} {task : Task} {rest : List Task} (due : a = .processing ∨ s.maxAttempts ≤ task.attempts) :
    Turns s (left a (task :: rest)) (.look task.id false) ⟨a, task :: rest, .retire⟩
  | choose {task : Task} {rest : List Task} (fresh : task.attempts < s.maxAttempts) :
    Turns s (left .pending (task :: rest)) (.look task.id false) ⟨.pending, task :: rest, .track⟩
  | retire {a : Status} {task : Task} {rest : List Task} (result : Except StoreError Unit) :
    Turns s ⟨a, task :: rest, .retire⟩ (.ask (.updateStatus task.id (Retirement.update s task)) result) (left a rest)
  | track {a : Status} {task : Task} {rest : List Task} (now : Timestamp) :
    Turns s ⟨a, task :: rest, .track⟩ (.track now task) (left a rest)
  | pass {a : Status} {ahead rest : List Task} {deed : Deed} (quiet : deed.isQuiet = true) (kept : rest <:+ ahead) :
    Turns s (left a ahead) deed (left a rest)

variable {s : Settings} {deed : Deed}

namespace Outlook.Turns

theorem stay (a : Status) (ahead : List Task) (quiet : deed.isQuiet = true) :
    Turns s (left a ahead) deed (left a ahead) := .pass quiet List.suffix_rfl

theorem finish (a : Status) (ahead : List Task) (quiet : deed.isQuiet = true) : Turns s (left a ahead) deed idle :=
  Turns.pass (s := s) (a := a) quiet List.nil_suffix

end Outlook.Turns

theorem Reclaim.outlook_onward (now : Timestamp) (count : Nat) (rest : List Task) :
    (onward now count rest).outlook = .left .processing rest := by cases rest <;> rfl

theorem Poll.outlook_onward (count : Nat) (rest : List Task) : (onward count rest).outlook = .left .pending rest := by
  cases rest <;> rfl

theorem Reclaim.turns_of_does {threshold : Duration} {pass pass' : Reclaim}
    (h : (pass.next s threshold).Does pass deed pass') : pass.outlook.Turns s deed pass'.outlook := by
  cases pass with
  | listing =>
    cases h with
    | ask result =>
      cases result with
      | ok tasks => exact .list .processing tasks
      | error e => exact .finish .processing [] rfl
    | drop hy =>
      cases hy
      exact .finish .processing [] rfl
  | dating tasks =>
    cases h with
    | readWallClock now =>
      rw [outlook_onward]
      exact .stay _ _ rfl
  | guarding now task rest count =>
    cases h with
    | see cancelled =>
      cases cancelled with
      | true => exact .finish .processing (task :: rest) rfl
      | false => exact .stay .processing (task :: rest) rfl
  | checking now task rest count =>
    cases h with
    | look tracked =>
      dsimp only
      split
      · -- a pass retires only what was listed in processing
        rename_i hretires
        obtain ⟨htracked, -⟩ := Bool.and_eq_true_iff.1 hretires
        obtain rfl : tracked = false := by simpa using htracked
        exact .condemn (.inl rfl)
      · rw [outlook_onward]
        exact .pass rfl (List.suffix_cons task rest)
  | retiring now task rest count stage =>
    obtain ⟨stage', hdoes, rfl⟩ := does_retiring h
    cases stage with
    | updating =>
      cases hdoes with
      | ask result =>
        cases result with
        | ok a => exact .retire _
        | error e =>
          show Outlook.Turns s _ _ (onward now count rest).outlook
          rw [outlook_onward]
          exact .retire _
      | drop hy => cases hy
    | announcing moment =>
      cases hdoes
      show Outlook.Turns s _ _ (onward now (count + 1) rest).outlook
      rw [outlook_onward]
      exact .stay _ _ rfl
    | done moved => cases hdoes
    | _ =>
      cases hdoes
      exact .stay _ _ rfl
  | done result => cases h

theorem Poll.turns_of_does {poll poll' : Poll} (h : (poll.next s).Does poll deed poll') :
    poll.outlook.Turns s deed poll'.outlook := by
  cases poll with
  | listing =>
    cases h with
    | ask result =>
      cases result with
      | ok tasks =>
        show Outlook.Turns s _ _ (onward 0 tasks).outlook
        rw [outlook_onward]
        exact .list .pending tasks
      | error e => exact .finish .pending [] rfl
    | drop hy =>
      cases hy
      exact .finish .pending [] rfl
  | checking task rest count =>
    cases h with
    | look tracked =>
      unfold afterCheck
      cases tracked with
      | true =>
        rw [if_pos rfl, outlook_onward]
        exact .pass rfl (List.suffix_cons task rest)
      | false =>
        rw [if_neg Bool.false_ne_true]
        split
        · rename_i hused
          exact .condemn (.inr hused)
        · rename_i hfresh
          exact .choose (Nat.lt_of_not_le hfresh)
  | retiring task rest count stage =>
    obtain ⟨stage', hdoes, rfl⟩ := does_retiring h
    cases stage with
    | updating =>
      cases hdoes with
      | ask result =>
        cases result with
        | ok a => exact .retire _
        | error e =>
          show Outlook.Turns s _ _ (onward count rest).outlook
          rw [outlook_onward]
          exact .retire _
      | drop hy => cases hy
    | announcing moment =>
      cases hdoes
      show Outlook.Turns s _ _ (onward count rest).outlook
      rw [outlook_onward]
      exact .stay _ _ rfl
    | done moved => cases hdoes
    | _ =>
      cases hdoes
      exact .stay _ _ rfl
  | enqueueing task rest count stage =>
    obtain ⟨stage', hdoes, rfl⟩ := does_enqueueing h
    cases stage with
    | tracking =>
      cases hdoes with
      | track now => exact .track now
    | sending =>
      cases hdoes with
      | join => exact .stay _ _ rfl
      | send => exact .stay _ _ rfl
      | leave hy =>
        cases hy
        exact .stay _ _ rfl
    | withdrawing =>
      cases hdoes with
      | untrack tracked => exact .finish _ _ rfl
    | done sent => cases hdoes
  | counting rest count =>
    cases h
    rw [outlook_onward]
    exact .stay _ _ rfl
  | done result => cases h
  | _ =>
    cases h
    exact .finish .pending [] rfl

/-- The dispatcher turns from one outlook to the next, whatever it does. -/
theorem Dispatcher.turns_of_does {d d' : Dispatcher} (h : (d.next s).Does d deed d') :
    d.outlook.Turns s deed d'.outlook := by
  cases d with
  | reclaiming due threshold pass =>
    obtain ⟨pass', hdoes, rfl⟩ := does_reclaiming h
    have hturns := Reclaim.turns_of_does hdoes
    cases pass' <;> exact hturns
  | polling due poll =>
    obtain ⟨poll', hdoes, rfl⟩ := does_polling h
    have hturns := Poll.turns_of_does hdoes
    cases poll' <;> exact hturns
  | waiting first due =>
    cases h with
    | wake moment => exact .finish .pending [] rfl
    | rise hy =>
      cases hy
      exact .finish .pending [] rfl
  | stopped => cases h
  | _ =>
    cases h
    exact .finish .pending [] rfl

end Backlog.Dispatch

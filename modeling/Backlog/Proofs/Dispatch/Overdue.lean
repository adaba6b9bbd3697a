import Backlog.Proofs.Dispatch.Reclaiming
import Backlog.Proofs.Store.Retiring

/-!
# How far a pass of the reclaiming has come

A pass goes through the tasks that it has listed one by one.  It retires those that the queue does not track and that
are overdue; where the update of a task is refused or fails, the pass leaves that task and goes on with the next one.

Key facts: which tasks are overdue (`Reclaim.isStale_iff`) and what can happen in a step of a pass
(`Reclaim.Goes.of_does`); where a pass stands says for which tasks it has asked the store, which of them were retired,
and which are counted (`Reclaim.Stands`).
-/

namespace Backlog.Dispatch

open Store

variable {s : Settings} {threshold : Duration} {now : Timestamp} {b b' : Backend} {q q' : Queue} {deed : Deed}
  {id : Int} {u : StatusUpdate} {task c : Task} {past rest ts : List Task} {pass pass' : Reclaim}

/-! ### Updates among the deeds -/

namespace Deed

/-- The update for which a deed has asked, under an identifier. -/
def asked? : Deed → Option (Int × StatusUpdate)
  | ask (.updateStatus id u) _ => some (id, u)
  | _ => none

/-- The update that a deed has made. -/
def made? : Deed → Option (Int × StatusUpdate)
  | ask (.updateStatus id u) (.ok _) => some (id, u)
  | _ => none

theorem asked?_eq_some_iff : deed.asked? = some (id, u) ↔ ∃ result, deed = .ask (.updateStatus id u) result := by
  constructor
  · intro h
    unfold asked? at h
    split at h
    · cases h
      exact ⟨_, rfl⟩
    · cases h
  · rintro ⟨result, rfl⟩
    rfl

theorem made?_eq_some_iff : deed.made? = some (id, u) ↔ deed = .ask (.updateStatus id u) (.ok ()) := by
  constructor
  · intro h
    unfold made? at h
    split at h
    · cases h
      rfl
    · cases h
  · rintro rfl
    rfl

theorem made?_of_unasked (h : deed.asked? = none) : deed.made? = none := by
  cases hmade : deed.made? with
  | none => rfl
  | some x =>
    obtain rfl := made?_eq_some_iff.1 hmade
    cases h

theorem made?_of_not_isFailure (h : deed.isFailure = false) : deed.made? = deed.asked? := by
  cases hasked : deed.asked? with
  | none => exact made?_of_unasked hasked
  | some x =>
    obtain ⟨result, rfl⟩ := asked?_eq_some_iff.1 hasked
    cases result with
    | ok => rfl
    | error e => cases h

theorem mem_asked_of_mem_made {deeds : List Deed} {p : Int × StatusUpdate} (h : p ∈ deeds.filterMap made?) :
    p ∈ deeds.filterMap asked? := by
  obtain ⟨deed, hdeed, hmade⟩ := List.mem_filterMap.1 h
  obtain rfl := made?_eq_some_iff.1 hmade
  exact List.mem_filterMap.2 ⟨_, hdeed, rfl⟩

/-- An update that is not made leaves the store as it is. -/
theorem Met.of_refused {e : StoreError} (h : Met b q (.ask (.updateStatus id u) (.error e)) b' q') : b' = b := by
  cases h with
  | answered wall answer => exact Backend.eq_of_refused answer
  | failed e => rfl
  | acted noAsk fits => cases noAsk

end Deed

/-! ### Retirements of several tasks -/

namespace Retirement

/-- The update by which a task is retired, under its identifier. -/
def errand (s : Settings) (c : Task) : Int × StatusUpdate := (c.id, update s c)

theorem target_idle (s : Settings) (c : Task) : target s c ≠ .processing := by
  unfold target
  split <;> decide

theorem canMoveTo_target (s : Settings) (c : Task) : Status.processing.canMoveTo (target s c) = true := by
  unfold target
  split <;> rfl

/-- The counters after some tasks have been retired. -/
def tallied (s : Settings) (t : Tally) (cs : List Task) : Tally :=
  { t with
    reclaimed := t.reclaimed + cs.countP fun c => target s c = .pending
    deadLettered := t.deadLettered + cs.countP fun c => target s c = .failed }

theorem tallied_concat (s : Settings) (t : Tally) (cs : List Task) (c : Task) :
    tallied s t (cs ++ [c]) = (tallied s t cs).record (count s c) := by
  unfold tallied count
  by_cases many : s.maxAttempts ≤ c.attempts
  · have htarget : target s c = .failed := if_pos many
    simp [htarget, Tally.record, Nat.add_assoc]
  · have htarget : target s c = .pending := if_neg many
    simp [htarget, Tally.record, Nat.add_assoc]

/-- Every task that is retired is counted once. -/
theorem rise_tallied (s : Settings) (t : Tally) (cs : List Task) :
    (tallied s t cs).reclaimed + (tallied s t cs).deadLettered = t.reclaimed + t.deadLettered + cs.length := by
  have hcount : cs.length =
      (cs.countP fun c => target s c = .pending) + cs.countP fun c => target s c = .failed := by
    rw [List.length_eq_countP_add_countP (p := fun c => decide (target s c = .pending))]
    refine congrArg _ (List.countP_congr fun c _ => ?_)
    unfold target
    split <;> simp
  unfold tallied
  dsimp only
  omega

end Retirement

namespace Reclaim

/-! ### Overdue tasks -/

/-- A task in processing is overdue at a moment. -/
inductive Due (threshold : Duration) (now : Timestamp) (c : Task) : Prop where
  | unstarted (never : c.startedAt = none)
  | old {start : Timestamp} (started : c.startedAt = some start) (past : 0 ≤ now.nanosSince start)
      (age : (threshold.nanos : Int) ≤ now.nanosSince start)
  /-- The start lies ahead, and no time need have passed. -/
  | ahead {start : Timestamp} (started : c.startedAt = some start) (future : now.nanosSince start < 0)
      (all : threshold = .zero)

theorem isStale_iff : isStale threshold now c = true ↔ Due threshold now c := by
  have hzero : threshold.isZero = true ↔ threshold = .zero := by
    unfold Duration.isZero
    rw [beq_iff_eq]
    exact ⟨fun h => Duration.ext h, fun h => congrArg Duration.nanos h⟩
  constructor
  · intro h
    unfold isStale at h
    split at h
    · rename_i hstart
      exact .unstarted hstart
    · rename_i start hstart
      dsimp only at h
      split at h
      · rename_i hfuture
        exact .ahead hstart hfuture (hzero.1 h)
      · rename_i hpast
        have hage := of_decide_eq_true h
        exact .old hstart (by omega) (by omega)
  · intro h
    unfold isStale
    cases h with
    | unstarted never => rw [never]
    | old started past age =>
      rw [started]
      dsimp only
      rw [if_neg (by omega), decide_eq_true_eq]
      omega
    | ahead started future all =>
      rw [started]
      dsimp only
      rw [if_pos future]
      exact hzero.2 all

/-- Of the listed tasks those that a pass retires: the queue does not track them, and they are overdue. -/
def due (threshold : Duration) (now : Timestamp) (q : Queue) (ts : List Task) : List Task :=
  ts.filter fun c => !q.contains c.id && isStale threshold now c

theorem mem_due_iff : c ∈ due threshold now q ts ↔ c ∈ ts ∧ q.contains c.id = false ∧ Due threshold now c := by
  unfold due
  rw [List.mem_filter, Bool.and_eq_true, Bool.not_eq_true', isStale_iff]

theorem due_concat (untracked : q.contains task.id = false) (stale : isStale threshold now task = true) :
    due threshold now q (past ++ [task]) = due threshold now q past ++ [task] := by
  simp [due, untracked, stale]

theorem due_concat_of_kept (kept : q.contains task.id = true ∨ isStale threshold now task = false) :
    due threshold now q (past ++ [task]) = due threshold now q past := by
  rcases kept with htracked | hyoung
  · simp [due, htracked]
  · simp [due, hyoung]

/-! ### Steps -/

/-- What can happen in a step of a pass: nothing fails, or the listing does, or the update of a task. -/
inductive Goes (s : Settings) (threshold : Duration) (b : Backend) (q : Queue) :
    Reclaim → Deed → Backend → Reclaim → Prop where
  | calm {pass pass' : Reclaim} {deed : Deed} {b' : Backend} (h : pass.Calm s threshold b q deed b' pass') :
    Goes s threshold b q pass deed b' pass'
  | unlisted (e : StoreError) :
    Goes s threshold b q listing (.ask (.listByStatus .processing) (.error e)) b (done (.error e))
  | refused {now : Timestamp} {task : Task} {rest : List Task} {count : Nat} (e : StoreError) :
    Goes s threshold b q (retiring now task rest count .updating)
      (.ask (.updateStatus task.id (Retirement.update s task)) (.error e)) b (onward now count rest)

theorem Goes.of_does (does : (pass.next s threshold).Does pass deed pass') (met : deed.Met b q b' q') :
    pass.Goes s threshold b q deed b' pass' := by
  cases calm : deed.isFailure with
  | false => exact .calm (.of_does does met calm)
  | true =>
    cases pass with
    | listing =>
      cases does with
      | ask result =>
        obtain ⟨rfl, -⟩ := met.of_listing
        cases result with
        | ok tasks => cases calm
        | error e => exact .unlisted e
      | drop hy => cases calm
    | retiring now task rest count stage =>
      obtain ⟨stage', hdoes, rfl⟩ := does_retiring does
      cases stage with
      | updating =>
        cases hdoes with
        | ask result =>
          cases result with
          | ok => cases calm
          | error e =>
            obtain rfl := met.of_refused
            exact .refused e
        | drop hy => cases hy
      | _ => cases hdoes <;> cases calm
    | _ => cases does <;> cases calm

/-- A pass changes the store by updates only. -/
theorem Goes.store_eq (h : pass.Goes s threshold b q deed b' pass') (unasked : deed.asked? = none) : b' = b := by
  cases h with
  | calm h =>
    cases h with
    | retired hstage =>
      cases hstage with
      | updated wall answer => cases unasked
      | _ => rfl
    | _ => rfl
  | unlisted e => rfl
  | refused e => rfl

/-- Once the tasks are listed only the update of a task can fail. -/
theorem Goes.asked_of_isFailure (h : pass.Goes s threshold b q deed b' pass') (listed : pass ≠ listing)
    (failed : deed.isFailure = true) : ∃ x, deed.asked? = some x := by
  cases h with
  | calm h =>
    cases h with
    | retired hstage => cases hstage <;> cases failed
    | _ => cases failed
  | unlisted e => exact absurd rfl listed
  | refused e => exact ⟨_, rfl⟩

/-- A pass asks for updates only to retire a task. -/
theorem updating_of_does (does : (pass.next s threshold).Does pass deed pass') (asked : deed.asked? = some (id, u)) :
    ∃ now task rest count, pass = retiring now task rest count .updating ∧ (id, u) = Retirement.errand s task := by
  cases pass with
  | listing => cases does <;> cases asked
  | retiring now task rest count stage =>
    obtain ⟨stage', hdoes, -⟩ := does_retiring does
    cases stage with
    | updating =>
      cases hdoes with
      | ask result => exact ⟨now, task, rest, count, rfl, (Option.some.inj asked).symm⟩
      | drop hy => cases hy
    | _ => cases hdoes <;> cases asked
  | _ => cases does <;> cases asked

/-! ### Where a pass stands -/

/-- What has come of a pass so far: the tasks for which it has asked the store, those of them that were retired, and
those that are counted. -/
structure Account where
  asked : List Task
  made : List Task
  counted : List Task

/-- Where a pass stands among the tasks that it has listed, after it has read the clock, and what has come of it. -/
inductive Stands (threshold : Duration) (now : Timestamp) (q : Queue) (ts : List Task) : Reclaim → Account → Prop where
  | guarding {past : List Task} {task : Task} {rest made : List Task} (cut : ts = past ++ task :: rest) :
    Stands threshold now q ts (guarding now task rest made.length) ⟨due threshold now q past, made, made⟩
  | checking {past : List Task} {task : Task} {rest made : List Task} (cut : ts = past ++ task :: rest) :
    Stands threshold now q ts (checking now task rest made.length) ⟨due threshold now q past, made, made⟩
  | updating {past : List Task} {task : Task} {rest made : List Task} (cut : ts = past ++ task :: rest)
      (untracked : q.contains task.id = false) (stale : isStale threshold now task = true) :
    Stands threshold now q ts (retiring now task rest made.length .updating) ⟨due threshold now q past, made, made⟩
  | counting {past : List Task} {task : Task} {rest made : List Task} (cut : ts = past ++ task :: rest) :
    Stands threshold now q ts (retiring now task rest made.length .counting)
      ⟨due threshold now q (past ++ [task]), made ++ [task], made⟩
  | telling {past : List Task} {task : Task} {rest made : List Task} {stage : Retirement}
      (cut : ts = past ++ task :: rest) (counted : stage = .dating ∨ ∃ read, stage = .announcing read) :
    Stands threshold now q ts (retiring now task rest made.length stage)
      ⟨due threshold now q (past ++ [task]), made ++ [task], made ++ [task]⟩
  | done {made : List Task} : Stands threshold now q ts (done (.ok made.length)) ⟨due threshold now q ts, made, made⟩

theorem stands_onward {made : List Task} {count : Nat} (cut : ts = past ++ rest) (hcount : count = made.length) :
    (onward now count rest).Stands threshold now q ts ⟨due threshold now q past, made, made⟩ := by
  subst hcount
  cases rest with
  | nil =>
    rw [List.append_nil] at cut
    rw [← cut]
    exact .done
  | cons task rest => exact .guarding cut

theorem due_sublist (threshold : Duration) (now : Timestamp) (q : Queue) (ts : List Task) :
    (due threshold now q ts).Sublist ts :=
  List.filter_sublist

/-- A pass asks for listed tasks only, and for each of them once. -/
theorem Stands.asked_sublist {a : Account} (h : pass.Stands threshold now q ts a) : a.asked.Sublist ts := by
  have upTo {past rest : List Task} (cut : ts = past ++ rest) : (due threshold now q past).Sublist ts := by
    rw [cut]
    exact (due_sublist threshold now q past).trans (List.sublist_append_left past rest)
  cases h with
  | guarding cut => exact upTo cut
  | checking cut => exact upTo cut
  | updating cut untracked stale => exact upTo cut
  | counting cut => exact upTo (cut.trans (List.append_cons _ _ _))
  | telling cut counted => exact upTo (cut.trans (List.append_cons _ _ _))
  | done => exact due_sublist threshold now q ts

end Reclaim

end Backlog.Dispatch

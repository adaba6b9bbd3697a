import Backlog.Proofs.Store.Footprint
import Backlog.Proofs.Store.Following

/-!
# Updates that expect a version

Any number of callers ask a store, each without knowing of the others, and the store answers one request after another.
Of a table that has refused an update it is found out only later why, from whatever the table holds by then.

Key facts: a run of calls on an empty store of either kind keeps an account of all that its callers have seen and of all
the versions that they have left behind (`Run.account`).  From it follows that an update that expects the version of a
task that was seen earlier finds that task as it was seen, but for its text, and that only one such update succeeds
(`Run.compare_and_swap`).
-/

namespace Backlog.Store

open Sql

/-! ### Runs of calls -/

/-- How a store answers a request and what becomes of it. -/
inductive Served : Backend → (r : Request) → Outcome r.Answer → Backend → Prop where
  | once (b : Backend) (now : Timestamp) (r : Request) : Served b r (b.perform now r).1 (b.perform now r).2
  /-- An update that has changed no row, where the reason is read from the table at some later time. -/
  | explained {tab : Table} {id : Int} {u : StatusUpdate}
      (missed : (tab.rows.any fun r => r.id = id && r.admits u) = false) (later : Table) :
    Served (.table tab) (.updateStatus id u) (later.missedUpdate id u) (.table tab)

/-- A call of a store, its outcome and what it has changed. -/
structure Exchange where
  before : Backend
  request : Request
  outcome : Outcome request.Answer
  after : Backend

namespace Exchange

/-- The tasks that a caller gets to see. -/
def tasks (c : Exchange) : List Task :=
  match c.outcome with
  | .answered (.ok a) => c.request.tasks a
  | _ => []

/-- The update of a status that a call has made. -/
def update? : Exchange → Option (Int × StatusUpdate)
  | ⟨_, .updateStatus id u, .answered (.ok _), _⟩ => some (id, u)
  | _ => none

/-- Whether a call was an update that the store has refused because the task has changed or is gone. -/
def isSuperseded : Exchange → Bool
  | ⟨_, .updateText _ _, .answered (.error e), _⟩ => e.isSuperseded
  | ⟨_, .updateStatus _ _, .answered (.error e), _⟩ => e.isSuperseded
  | _ => false

end Exchange

/-- Calls of a store one after another, the latest one last. -/
inductive Run (start : Backend) : List Exchange → Backend → Prop where
  | start : Run start [] start
  | call {calls b r o b'} (h : Run start calls b) (s : Served b r o b') : Run start (calls ++ [⟨b, r, o, b'⟩]) b'

/-- The number of updates of the status of a task that have succeeded. -/
def updateCount (id : Int) (calls : List Exchange) : Nat := calls.countP fun c => c.update?.any fun w => w.1 = id

/-! ### What the calls have in common -/

/-- An update that is refused because the task has changed or is gone leaves the store as it is. -/
theorem Served.eq_of_isSuperseded {b b' : Backend} {r : Request} {o : Outcome r.Answer} (s : Served b r o b')
    (h : (Exchange.mk b r o b').isSuperseded = true) : b' = b := by
  cases s with
  | explained missed later => rfl
  | once _ now _ =>
    cases r with
    | updateText id text =>
      cases b with
      | memory m =>
        simp only [Backend.perform, Memory.perform, Memory.updateText] at h ⊢
        split
        · rfl
        · rename_i ht
          rw [ht] at h
          cases h
      | table tab =>
        simp only [Backend.perform, Table.perform, Table.updateText] at h ⊢
        split
        · rfl
        · rename_i ht
          rw [ht] at h
          cases h
    | updateStatus id u =>
      cases b with
      | memory m =>
        simp only [Backend.perform, Memory.perform, Memory.updateStatus] at h ⊢
        split
        · rfl
        rename_i ht
        split
        · rfl
        rename_i hu
        rw [ht] at h
        dsimp only at h
        rw [hu] at h
        cases h
      | table tab =>
        simp only [Backend.perform, Table.perform, Table.updateStatus] at h ⊢
        split
        · rename_i hhit
          rw [if_pos hhit] at h
          cases h
        · rfl
    | _ => cases h

private theorem update?_eq_some {c : Exchange} {id : Int} {u : StatusUpdate} (h : c.update? = some (id, u)) :
    ∃ b b', c = ⟨b, .updateStatus id u, .ok (), b'⟩ := by
  unfold Exchange.update? at h
  split at h
  · cases h
    exact ⟨_, _, rfl⟩
  · cases h

private theorem mem_tasks {c : Exchange} {t : Task} (h : t ∈ c.tasks) :
    ∃ a, c.outcome = .ok a ∧ t ∈ c.request.tasks a := by
  unfold Exchange.tasks at h
  split at h
  · rename_i a ha
    exact ⟨a, ha, h⟩
  · cases h

/-- An update that is made is made at once. -/
private theorem Served.ok_of_update? {b b' : Backend} {r : Request} {o : Outcome r.Answer} (s : Served b r o b')
    {id : Int} {u : StatusUpdate} (h : (Exchange.mk b r o b').update? = some (id, u)) :
    ∃ now, (b.perform now (.updateStatus id u)).1 = .ok () := by
  obtain ⟨_, _, hcall⟩ := update?_eq_some h
  injection hcall with _ hr ho _
  subst hr
  cases s with
  | once _ now _ => exact ⟨now, eq_of_heq ho⟩
  | explained missed later => exact absurd (eq_of_heq ho) (later.missedUpdate_ne_ok _ _)

/-! ### The account of a run -/

/-- What is known after calls of a store that stands for a store in memory. -/
structure Account (b : Backend) (m : Memory) (calls : List Exchange) : Prop where
  represents : b.Represents m
  ordered : m.Ordered
  /-- No task has been claimed or changed more often than calls have done so. -/
  counted : ∀ id t, m.find? id = some t → (t.attempts : Int) ≤ t.version ∧ t.version ≤ updateCount id calls
  recalled : ∀ c ∈ calls, ∀ t ∈ c.tasks, ∃ t', b.shows t' = t ∧ m.Recalls t'
  passed : ∀ c ∈ calls, ∀ id u, c.update? = some (id, u) → ∀ v, u.expectedVersion = some v → m.Passed id v

private theorem account_start {b : Backend} (h : b = .memory .empty ∨ b = .table .fresh) : Account b .empty [] where
  represents := by
    rcases h with rfl | rfl
    · rfl
    · exact Table.mirrors_fresh
  ordered := Memory.ordered_empty
  counted id t ht := by cases ht
  recalled c hc := by cases hc
  passed c hc := by cases hc

variable {b b' : Backend} {m : Memory} {calls : List Exchange} {r : Request} {o : Outcome r.Answer}

private theorem updateCount_append (id : Int) (calls : List Exchange) (c : Exchange) :
    updateCount id (calls ++ [c]) = updateCount id calls + if c.update?.any (fun w => w.1 = id) then 1 else 0 := by
  unfold updateCount
  rw [List.countP_append, List.countP_singleton]

/-- A call that leaves the store as it is and does not answer adds nothing to the account. -/
private theorem Account.idle (h : Account b m calls) (hupdate : (Exchange.mk b r o b).update? = none)
    (htasks : (Exchange.mk b r o b).tasks = []) : Account b m (calls ++ [⟨b, r, o, b⟩]) where
  represents := h.represents
  ordered := h.ordered
  counted id t ht := by
    rw [updateCount_append, hupdate]
    exact h.counted id t ht
  recalled c hc t ht := by
    rcases List.mem_append.1 hc with hc | hc
    · exact h.recalled c hc t ht
    · rw [List.mem_singleton.1 hc, htasks] at ht
      cases ht
  passed c hc id u hu := by
    rcases List.mem_append.1 hc with hc | hc
    · exact h.passed c hc id u hu
    · rw [List.mem_singleton.1 hc, hupdate] at hu
      cases hu

/-- A table has room for an update that it makes as long as not too many have been made. -/
private theorem Account.hasRoom (h : Account b m calls) {now : Timestamp} {id : Int} {u : StatusUpdate}
    (few : (updateCount id (calls ++ [⟨b, .updateStatus id u, (b.perform now (.updateStatus id u)).1,
      (b.perform now (.updateStatus id u)).2⟩]) : Int) ≤ mostInteger) : m.HasRoom (.updateStatus id u) := by
  intro t ht hu
  have hok := (h.represents.updateStatus_ok_iff h.ordered now id u).2 ⟨t, ht, hu⟩
  obtain ⟨hle, hcount⟩ := h.counted id t ht
  rw [updateCount_append, hok] at few
  simp only [Exchange.update?, Outcome.ok, Option.any_some, decide_true, if_true] at few
  refine ⟨hle, ?_⟩
  omega

/-- Every task that is stored after a call was counted before it, or the call has counted it. -/
private theorem Account.counted_perform (h : Account b m calls) {now now' : Timestamp} {r' : Request}
    (heard : b.Heard r r') {id : Int} {t : Task} (ht : (m.perform now' r').2.find? id = some t) :
    (t.attempts : Int) ≤ t.version ∧
      t.version ≤ updateCount id (calls ++ [⟨b, r, (b.perform now r).1, (b.perform now r).2⟩]) := by
  rw [updateCount_append]
  rcases h.ordered.origin _ _ ht with ⟨new, -, -, rfl⟩ | ⟨s, hs, rfl | ⟨text, -, rfl⟩ | ⟨u, rfl, hu, rfl⟩⟩
  · refine ⟨Int.le_refl 0, ?_⟩
    show (0 : Int) ≤ _
    omega
  · have hcount := h.counted id t hs
    omega
  · have hcount := h.counted id s hs
    dsimp only
    omega
  · have hcount := h.counted id s hs
    obtain ⟨w, rfl, rfl⟩ := heard.updateStatus
    have hok : (b.perform now (.updateStatus id w)).1 = .ok () :=
      (h.represents.updateStatus_ok_iff h.ordered now id w).2 ⟨s, hs, hu⟩
    rw [hok]
    have hattempts : ((w.adjusted b.timeOf).applyTo s).attempts ≤ s.attempts + 1 := by
      unfold StatusUpdate.applyTo
      dsimp only
      split <;> omega
    have hone : ((Exchange.mk b (.updateStatus id w) (.ok ()) (b.perform now (.updateStatus id w)).2).update?.any
        fun w => w.1 = id) = true := by simp [Exchange.update?, Outcome.ok]
    rw [StatusUpdate.applyTo_version, if_pos hone]
    omega

private theorem Account.perform (h : Account b m calls) (now : Timestamp) (r : Request)
    (few : ∀ id, (updateCount id (calls ++ [⟨b, r, (b.perform now r).1, (b.perform now r).2⟩]) : Int) ≤ mostInteger) :
    ∃ m', Account (b.perform now r).2 m' (calls ++ [⟨b, r, (b.perform now r).1, (b.perform now r).2⟩]) := by
  have room (id : Int) (u : StatusUpdate) (hr : r = .updateStatus id u) : m.HasRoom r := by
    subst hr
    exact h.hasRoom (few id)
  obtain ⟨now', r', heard, hafter, hanswer⟩ := h.represents.follows h.ordered now r room
  refine ⟨(m.perform now' r').2, hafter, h.ordered.perform _ _, fun id t ht => h.counted_perform heard ht,
    fun c hc t ht => ?_, fun c hc id u hu v hv => ?_⟩
  · rw [Backend.shows_perform]
    rcases List.mem_append.1 hc with hc | hc
    · obtain ⟨t', hshows, hrecalls⟩ := h.recalled c hc t ht
      exact ⟨t', hshows, hrecalls.perform h.ordered _ _⟩
    · obtain rfl := List.mem_singleton.1 hc
      obtain ⟨a, ha, hta⟩ := mem_tasks ht
      exact hanswer a ha t hta
  · rcases List.mem_append.1 hc with hc | hc
    · exact (h.passed c hc id u hu v hv).perform h.ordered _ _
    · obtain rfl := List.mem_singleton.1 hc
      obtain ⟨_, _, hcall⟩ := update?_eq_some hu
      injection hcall with _ hr ho _
      subst hr
      obtain ⟨t, ht, hadmits⟩ := (h.represents.updateStatus_ok_iff h.ordered now id u).1 (eq_of_heq ho)
      rw [heard.eq_of_updateStatus, ← (StatusUpdate.refusal?_eq_none_iff.1 hadmits).1 v hv]
      exact h.ordered.passed_of_admitted (u := u.adjusted b.timeOf) ht hadmits

/-- Whatever a call does, the account goes on. -/
private theorem Account.served (h : Account b m calls) (s : Served b r o b')
    (few : ∀ id, (updateCount id (calls ++ [⟨b, r, o, b'⟩]) : Int) ≤ mostInteger) :
    ∃ m', Account b' m' (calls ++ [⟨b, r, o, b'⟩]) := by
  cases s with
  | once _ now _ => exact h.perform now r few
  | @explained tab id u missed later =>
    refine ⟨m, h.idle ?_ ?_⟩
    · cases ho : later.missedUpdate id u with
      | crashed text => rfl
      | answered result =>
        cases result with
        | error e => rfl
        | ok a => exact absurd ho (later.missedUpdate_ne_ok id u)
    · unfold Exchange.tasks
      dsimp only
      split <;> rfl

private theorem updateCount_le (id : Int) (calls : List Exchange) (c : Exchange) :
    updateCount id calls ≤ updateCount id (calls ++ [c]) := by
  rw [updateCount_append]
  omega

/-- Every run on an empty store keeps an account of its calls. -/
theorem Run.account {start : Backend} (hstart : start = .memory .empty ∨ start = .table .fresh)
    (run : Run start calls b) (few : ∀ id, (updateCount id calls : Int) ≤ mostInteger) : ∃ m, Account b m calls := by
  induction run with
  | start => exact ⟨.empty, account_start hstart⟩
  | call _ s ih =>
    obtain ⟨m, h⟩ := ih fun id => Int.le_trans (Int.ofNat_le.2 (updateCount_le id _ _)) (few id)
    exact h.served s few

/-! ### Compare and swap -/

/-- An update that expects the version of a task that was seen finds that task as it was seen, but for its text. -/
private theorem Account.found_as_seen (h : Account b m calls) {now : Timestamp} {c : Exchange} (hc : c ∈ calls)
    {t : Task} (ht : t ∈ c.tasks) {u : StatusUpdate} (hu : u.expectedVersion = some t.version)
    (hok : (b.perform now (.updateStatus t.id u)).1 = .ok ()) :
    ∃ text, ∀ wall, b.perform wall (.get t.id) = (.ok (some { t with text }), b) := by
  obtain ⟨s, hs, hadmits⟩ := (h.represents.updateStatus_ok_iff h.ordered now t.id u).1 hok
  obtain ⟨t', rfl, -, honward⟩ := h.recalled c hc t ht
  have hversion : s.version = t'.version := by
    rw [(StatusUpdate.refusal?_eq_none_iff.1 hadmits).1 _ hu, Backend.shows_version]
  -- the version is the same, so nothing but the text can be new
  rcases honward s (b.shows_id t' ▸ hs) with hlt | hsame
  · omega
  · refine ⟨s.text, fun wall => ?_⟩
    have hshown : b.shows s = { b.shows t' with text := s.text } :=
      (congrArg b.shows hsame).trans (b.shows_text t' s.text)
    rw [h.represents.get, hs, Option.map_some, hshown]

/-- **Main theorem.**  In every run of calls on an empty store, of either kind, that updates no task more often than
64 bits can count: an update that expects the version of a task that an earlier call has shown succeeds only on that
very task, which at most has another text; of the updates that expect the same version of a task at most one
succeeds; and an update that is refused because the task has changed or is gone leaves the store as it is. -/
theorem Run.compare_and_swap {start : Backend} (hstart : start = .memory .empty ∨ start = .table .fresh)
    (run : Run start calls b) (few : ∀ id, (updateCount id calls : Int) ≤ mostInteger) :
    (calls.Pairwise fun c d => ∀ t ∈ c.tasks, ∀ u, d.update? = some (t.id, u) → u.expectedVersion = some t.version →
      ∃ text, ∀ wall, d.before.perform wall (.get t.id) = (.ok (some { t with text }), d.before)) ∧
    (calls.Pairwise fun c d => ∀ id u w, c.update? = some (id, u) → d.update? = some (id, w) →
      ∀ v, u.expectedVersion = some v → w.expectedVersion ≠ some v) ∧
    ∀ c ∈ calls, c.isSuperseded = true → c.after = c.before := by
  induction run with
  | start => exact ⟨.nil, .nil, fun c hc => by cases hc⟩
  | @call calls b r o b' run s ih =>
    have few' (id : Int) := Int.le_trans (Int.ofNat_le.2 (updateCount_le id calls _)) (few id)
    obtain ⟨hseen, honce, hkept⟩ := ih few'
    obtain ⟨m, h⟩ := run.account hstart few'
    refine ⟨List.pairwise_append.2 ⟨hseen, List.pairwise_singleton _ _, fun c hc d hd => ?_⟩,
      List.pairwise_append.2 ⟨honce, List.pairwise_singleton _ _, fun c hc d hd => ?_⟩, fun c hc => ?_⟩
    · obtain rfl := List.mem_singleton.1 hd
      intro t ht u hu hv
      obtain ⟨now, hok⟩ := s.ok_of_update? hu
      exact h.found_as_seen hc ht hv hok
    · obtain rfl := List.mem_singleton.1 hd
      intro id u w hu hw v hv hwv
      obtain ⟨now, hok⟩ := s.ok_of_update? hw
      obtain ⟨t, ht, hadmits⟩ := (h.represents.updateStatus_ok_iff h.ordered now id w).1 hok
      have hsame : t.version = v := (StatusUpdate.refusal?_eq_none_iff.1 hadmits).1 v hwv
      have hpassed := (h.passed c hc id u hu v hv).2 t ht
      omega
    · rcases List.mem_append.1 hc with hc | hc
      · exact hkept c hc
      · obtain rfl := List.mem_singleton.1 hc
        exact s.eq_of_isSuperseded

/-- The claim of a task that has just been created finds it as it was created. -/
theorem compare_and_swap_of_created :
    ∃ text, ∀ wall, (Backend.memory (Memory.empty.create .earliest ⟨"a", "u"⟩).2).perform wall (.get 1) =
      (.ok (some { (Memory.empty.create .earliest ⟨"a", "u"⟩).1 with text }),
        .memory (Memory.empty.create .earliest ⟨"a", "u"⟩).2) := by
  have hcreate := Run.start.call (.once (.memory .empty) .earliest (.create ⟨"a", "u"⟩))
  have hclaim := hcreate.call (.once _ .earliest (.updateStatus 1 ((StatusUpdate.claim .earliest).expecting 0)))
  have hswap := hclaim.compare_and_swap (.inl rfl) fun id =>
    Int.le_trans (Int.ofNat_le.2 List.countP_le_length) (by decide : (2 : Int) ≤ mostInteger)
  obtain ⟨-, -, hseen⟩ := List.pairwise_append.1 hswap.1
  exact hseen _ (List.mem_singleton_self _) _ (List.mem_singleton_self _) _ (List.mem_singleton_self _) _ rfl rfl

end Backlog.Store

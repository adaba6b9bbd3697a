import Backlog.Proofs.Interleaving.Holding
import Backlog.Proofs.Interleaving.Landing

/-!
# The budget of attempts

Runtimes that allow as many attempts as each other share a store, and nobody else changes the status of a task.  Each
claim of a task is one attempt and each attempt ends with one more change, so the version of a task tells how many
attempts it has used; and a dispatcher retires a task for the attempts that it has seen, but only from the version at
which it has seen them.

Key facts: a lawful update keeps a task within its budget (`Task.WithinBudget.applyTo`), everything that is on its way
to the store is lawful (`Frugal`), and so no task is ever claimed too often (`System.Reaches.within_budget`).
-/

namespace Backlog

open Dispatch Simulation Store

/-! ### The budget of a task -/

/-- Whether a task has kept to its attempts, and its version counts them. -/
def Task.WithinBudget (most : Nat) (t : Task) : Prop :=
  match t.status with
  | .pending => t.version = 2 * t.attempts ∧ t.attempts < most
  | .processing => t.version + 1 = 2 * t.attempts ∧ 1 ≤ t.attempts ∧ t.attempts ≤ most
  | .completed => t.version = 2 * t.attempts ∧ t.attempts ≤ most
  | .failed => t.version = 2 * t.attempts ∧ t.attempts = most

namespace Task.WithinBudget

variable {most : Nat} {t : Task}

theorem attempts_le (h : t.WithinBudget most) : t.attempts ≤ most := by
  unfold WithinBudget at h
  split at h <;> omega

theorem version_le (h : t.WithinBudget most) : t.version ≤ 2 * most := by
  unfold WithinBudget at h
  split at h <;> omega

theorem attempts_eq (h : t.WithinBudget most) (failed : t.status = .failed) : t.attempts = most := by
  unfold WithinBudget at h
  rw [failed] at h
  exact h.2

/-- A task that moves on by a claim, a completion or a retirement stays within its budget. -/
theorem applyTo (h : t.WithinBudget most) {u : StatusUpdate} (hmove : t.status.canMoveTo u.status = true)
    (hu : (u.status = .processing ∨ u.status = .completed) ∨
      u.status = if most ≤ t.attempts then .failed else .pending) : (u.applyTo t).WithinBudget most := by
  have hattempts : (u.applyTo t).attempts = if u.status = .processing then t.attempts + 1 else t.attempts := rfl
  unfold WithinBudget at h ⊢
  rw [StatusUpdate.applyTo_status, StatusUpdate.applyTo_version, hattempts]
  cases hs : t.status with
  | pending =>
    rw [hs] at h hmove
    obtain ⟨hversion, hlt⟩ := h
    cases htarget : u.status with
    | processing =>
      rw [if_pos rfl]
      dsimp only
      omega
    | failed =>
      -- a task that waits has an attempt left
      rw [htarget, if_neg (by omega)] at hu
      simp at hu
    | _ =>
      rw [htarget] at hmove
      cases hmove
  | processing =>
    rw [hs] at h hmove
    obtain ⟨hversion, hpos, hle⟩ := h
    cases htarget : u.status with
    | processing =>
      rw [htarget] at hmove
      cases hmove
    | completed =>
      rw [if_neg (by decide)]
      dsimp only
      omega
    | pending =>
      rw [htarget] at hu
      rw [if_neg (by decide)]
      dsimp only
      split at hu
      · simp at hu
      · omega
    | failed =>
      rw [htarget] at hu
      rw [if_neg (by decide)]
      dsimp only
      split at hu
      · omega
      · simp at hu
  | completed =>
    rw [hs, Status.not_canMoveTo_of_terminal rfl] at hmove
    cases hmove
  | failed =>
    rw [hs, Status.not_canMoveTo_of_terminal rfl] at hmove
    cases hmove

end Task.WithinBudget

namespace Interleaving

variable {most : Nat} {b : Backend} {m : Memory} {x y : System} {es es' : List Event}

/-! ### Lawful requests -/

/-- An update that claims or completes a task, or retires one for the attempts that it had when it was seen. -/
def Lawful (most : Nat) (m : Memory) : Request → Prop
  | .updateStatus id u =>
    (u.status = .processing ∨ u.status = .completed) ∨
      ∃ t, m.Recalls t ∧ t.id = id ∧ u.expectedVersion = some t.version ∧
        u.status = if most ≤ t.attempts then .failed else .pending
  | _ => True

theorem Lawful.perform {r : Request} (h : Lawful most m r) (hm : m.Ordered) (now' : Timestamp) (r' : Request) :
    Lawful most (m.perform now' r').2 r := by
  cases r with
  | updateStatus id u =>
    rcases h with h | ⟨t, hrecalls, ht⟩
    · exact .inl h
    · exact .inr ⟨t, hrecalls.perform hm now' r', ht⟩
  | _ => trivial

/-- A lawful update that is not refused keeps the task within its budget. -/
theorem Lawful.withinBudget {id : Int} {u : StatusUpdate} (h : Lawful most m (.updateStatus id u)) {t : Task}
    (ht : m.find? id = some t) (hu : u.refusal? t = none) (hwithin : t.WithinBudget most) :
    (u.applyTo t).WithinBudget most := by
  obtain ⟨hversion, hmove⟩ := StatusUpdate.refusal?_eq_none_iff.1 hu
  refine hwithin.applyTo hmove ?_
  rcases h with h | ⟨t₀, hrecalls, rfl, hexpects, htarget⟩
  · exact .inl h
  · -- the task has the version at which it was seen, and so the attempts
    have hsame := hversion _ hexpects
    rcases hrecalls.2 t ht with hlt | heq
    · omega
    · have hattempts : t.attempts = t₀.attempts := by rw [heq]
      rw [hattempts]
      exact .inr htarget

/-- A copy of a task that the store has shown at some time. -/
def Copied (b : Backend) (m : Memory) (t : Task) : Prop := ∃ t', b.shows t' = t ∧ m.Recalls t'

theorem Copied.perform {t : Task} (h : Copied b m t) (hm : m.Ordered) {wall now' : Timestamp} {r r' : Request} :
    Copied (b.perform wall r).2 (m.perform now' r').2 t := by
  obtain ⟨t', hshows, hrecalls⟩ := h
  refine ⟨t', ?_, hrecalls.perform hm now' r'⟩
  rw [Backend.shows_perform]
  exact hshows

/-- A store shows whether the attempts are used up, though it may not show how many there were. -/
private theorem le_shows_attempts (hfits : most ≤ Row.mostAttempts) (b : Backend) (t : Task) :
    most ≤ (b.shows t).attempts ↔ most ≤ t.attempts := by
  cases b with
  | memory m => exact Iff.rfl
  | table tab =>
    show most ≤ Row.attemptsOf t.attempts ↔ most ≤ t.attempts
    unfold Row.attemptsOf
    split <;> omega

/-! ### What is known of frugal runtimes -/

/-- Tasks within their budgets, runtimes that hold copies of tasks, and lawful requests on their way to the store. -/
structure Frugal (most : Nat) (x : System) (m : Memory) (es : List Event) : Prop where
  ledger : Ledger x.store m es
  within : ∀ id t, m.find? id = some t → t.WithinBudget most
  few : ∀ id, moveCount id es ≤ 2 * most
  drifting : ∀ c ∈ x.drifting, Lawful most m c.2
  copied : ∀ p i, ∀ t ∈ held (x.seats p i).job, Copied x.store m t
  owned : ∀ p i id u limit, (x.seats p i).job ≠ .ask (.updateStatus id u) limit
  settings : ∀ p, (x.runtimes p).settings.maxAttempts = most

theorem frugal_start {wall : Timestamp} {settings : Nat → Settings} (hb : b = .memory .empty ∨ b = .table .fresh)
    (hsettings : ∀ p, (settings p).maxAttempts = most) : Frugal most (.start b wall settings) .empty [] where
  ledger := ledger_start hb
  within id t ht := by cases ht
  few id := Nat.zero_le _
  drifting c hc := by cases hc
  copied p i t ht := by cases ht
  owned p i id u limit h := by cases h
  settings := hsettings

namespace Frugal

/-- Events that tell of no move change nothing. -/
theorem silent (h : Frugal most x m es) (silent : moves es' = []) : Frugal most x m (es ++ es') :=
  { h with
    ledger := h.ledger.silent silent
    few := fun id => by
      have hnone : moveCount id es' = 0 := by
        unfold moveCount
        rw [silent]
        rfl
      rw [moveCount_append, hnone]
      exact h.few id }

theorem modify (h : Frugal most x m es) (p : Nat) {f : Runtime → Runtime} (keeps : ∀ r, (f r).settings = r.settings) :
    Frugal most (x.modify p f) m es :=
  { h with
    settings := fun q => by
      rw [System.settings_modify x p keeps q]
      exact h.settings q }

theorem drift (h : Frugal most x m es) (a : Author) {r : Request} (lawful : Lawful most m r) :
    Frugal most { x with drifting := x.drifting ++ [(a, r)] } m es :=
  { h with
    drifting := fun c hc => by
      rcases List.mem_append.1 hc with hc | hc
      · exact h.drifting c hc
      · rw [List.mem_singleton.1 hc]
        exact lawful }

theorem setSeat (h : Frugal most x m es) (p i : Nat) {s : Seat} (copied : ∀ t ∈ held s.job, Copied x.store m t)
    (owned : ∀ id u limit, s.job ≠ .ask (.updateStatus id u) limit) : Frugal most (x.setSeat p i s) m es :=
  { h with
    copied := fun q j t ht => by
      rw [System.seats_setSeat] at ht
      split at ht
      · exact copied t ht
      · exact h.copied q j t ht
    owned := fun q j id u limit hjob => by
      rw [System.seats_setSeat] at hjob
      split at hjob
      · exact owned id u limit hjob
      · exact h.owned q j id u limit hjob }

/-- There is always room for an update of a task within its budget. -/
theorem hasRoom (h : Frugal most x m es) (hfits : most ≤ Row.mostAttempts) {r : Request} {id : Int}
    {u : StatusUpdate} (hr : r = .updateStatus id u) : m.HasRoom r := by
  subst hr
  intro t ht _
  have hversion := (h.within id t ht).version_le
  refine ⟨(h.ledger.entered id t ht).attempts_le, ?_⟩
  unfold Sql.mostInteger
  unfold Row.mostAttempts at hfits
  omega

/-- A lawful request that reaches the store leaves everything as it should be, and its answer shows copies. -/
theorem perform (h : Frugal most x m es) (hmost : 1 ≤ most) (hfits : most ≤ Row.mostAttempts) (a : Author)
    {r : Request} (lawful : Lawful most m r) :
    ∃ m', Frugal most { x with store := (x.store.perform x.wall r).2 } m' (es ++ landing x.store x.wall a r) ∧
      ∀ result, (x.store.perform x.wall r).1 = .answered result →
        ShowsOnly (Copied (x.store.perform x.wall r).2 m') r result := by
  have hm := h.ledger.ordered
  obtain ⟨now', r', heard, hafter, hanswer⟩ :=
    h.ledger.represents.follows hm x.wall r fun id u hr => h.hasRoom hfits hr
  have hledger := h.ledger.perform x.wall a heard hafter
  have hwithin : ∀ id t, (m.perform now' r').2.find? id = some t → t.WithinBudget most := by
    intro id t' ht'
    rcases origin_of_heard h.ledger.represents hm x.wall a heard ht' with
      ⟨-, ⟨new, rfl⟩, -⟩ | ⟨t, ht, ⟨⟨text, rfl⟩, -⟩ | ⟨u, rfl, hu, rfl, -⟩⟩
    · exact ⟨rfl, hmost⟩
    · exact h.within id t ht
    · exact lawful.withinBudget ht hu (h.within id t ht)
  have hfew : ∀ id, moveCount id (es ++ landing x.store x.wall a r) ≤ 2 * most := by
    intro id
    cases hfind : (m.perform now' r').2.find? id with
    | some t =>
      have hcount := (hledger.entered id t hfind).counted
      have hversion := (hwithin id t hfind).version_le
      omega
    | none =>
      -- whatever is moved is there afterwards
      rcases landing_cases h.ledger.represents hm x.wall a r with hnone | ⟨j, u, t, rfl, ht, hu, hone⟩
      · rw [hnone, List.append_nil]
        exact h.few id
      · have hne : id ≠ j := by
          rintro rfl
          have hadjusted : (u.adjusted x.store.timeOf).refusal? t = none := hu
          rw [heard.eq_of_updateStatus, Memory.find?_updateStatus ht hadjusted] at hfind
          cases hfind
        have hother : moveCount id [Event.landed a j t.version] = 0 := by
          simp [moveCount, moves, Event.move?, hne.symm]
        rw [hone, moveCount_append, hother]
        exact h.few id
  refine ⟨(m.perform now' r').2, ⟨hledger, hwithin, hfew, fun c hc => (h.drifting c hc).perform hm now' r',
    fun p i t ht => (h.copied p i t ht).perform hm, h.owned, h.settings⟩, ?_⟩
  intro result hresult a ha t ht
  obtain ⟨t', hshows, hrecalls⟩ := hanswer a (hresult.trans (congrArg Outcome.answered ha)) t ht
  refine ⟨t', ?_, hrecalls⟩
  rw [Backend.shows_perform]
  exact hshows

/-! ### What frugal runtimes do -/

/-- Whatever a job asks for is lawful. -/
theorem lawful (h : Frugal most x m es) (hfits : most ≤ Row.mostAttempts) {p i : Nat} {r : Request}
    (hasks : Asking (x.runtimes p).settings (x.seats p i).job r) : Lawful most m r := by
  cases r with
  | updateStatus id u =>
    rcases hasks with hstatus | ⟨t, ht, rfl, rfl⟩ | ⟨limit, hjob⟩
    · exact .inl hstatus
    · obtain ⟨t', rfl, hrecalls⟩ := h.copied p i t ht
      refine .inr ⟨t', hrecalls, (x.store.shows_id t').symm, congrArg some (x.store.shows_version t'), ?_⟩
      show Retirement.target _ _ = _
      unfold Retirement.target
      rw [h.settings p]
      exact if_congr (le_shows_attempts hfits x.store t') rfl rfl
    · exact absurd hjob (h.owned p i id u limit)
  | _ => trivial

/-- A job that acts leaves everything as it should be, and itself too. -/
theorem serve (h : Frugal most x m es) (hmost : 1 ≤ most) (hfits : most ≤ Row.mostAttempts) {p i : Nat} {st : Step Job}
    (hst : (x.seats p i).job.next (x.runtimes p).settings = st) {s' : Seat}
    (hserves : x.Serves p i (x.seats p i) st s' y es') :
    ∃ m', Frugal most y m' (es ++ es') ∧ (∀ t ∈ held s'.job, Copied y.store m' t) ∧
      ∀ id u limit, s'.job ≠ .ask (.updateStatus id u) limit := by
  have hasks : st.Asks (Asking (x.runtimes p).settings (x.seats p i).job) := hst ▸ asks_next _ _
  have hheld (m' : Memory) (b' : Backend) (hcopied : ∀ t ∈ held (x.seats p i).job, Copied b' m' t) :
      st.All (ShowsOnly (Copied b' m')) (fun _ => True) fun job => ∀ t ∈ held job, Copied b' m' t :=
    hst ▸ held_next _ hcopied
  have howned : st.All (fun _ _ => True) (fun _ => True) fun job => ∀ r limit, job ≠ .ask r limit :=
    hst ▸ not_ask_next _ _ _
  have hsame := hheld m x.store (h.copied p i)
  cases hserves with
  | answered answer =>
    obtain ⟨m', hafter, hshows⟩ := h.perform hmost hfits ⟨p, i, (x.seats p i).round⟩ (h.lawful hfits hasks)
    refine ⟨m', ?_, ?_, fun id u limit => howned.2 _ trivial _ _⟩
    · rw [← List.append_assoc]
      exact hafter.silent (moves_attempt _ _ _)
    · exact (hheld m' _ (hafter.copied p i)).2 _ (hshows _ answer)
  | failed passing =>
    exact ⟨m, (h.drift _ (h.lawful hfits hasks)).silent (moves_attempt _ _ _),
      hsame.2 _ fun _ ha => (by cases ha), fun id u limit => howned.2 _ trivial _ _⟩
  | refused superseded =>
    exact ⟨m, h.silent (moves_attempt _ _ _), hsame.2 _ fun _ ha => (by cases ha),
      fun id u limit => howned.2 _ trivial _ _⟩
  | interrupted cancelled =>
    exact ⟨m, (h.drift _ (h.lawful hfits hasks)).silent rfl, hsame.1 _ rfl, fun id u limit => howned.1 _ rfl _ _⟩
  | waited lines keeps => exact ⟨m, (h.modify p keeps).silent rfl, h.copied p i, h.owned p i⟩
  | received t keeps =>
    exact ⟨m, (h.modify p keeps).silent rfl, hsame.2 t trivial, fun id u limit => howned.2 t trivial _ _⟩
  | went keeps noCall follows =>
    exact ⟨m, (h.modify p keeps).silent rfl, follows _ _ hsame.still,
      fun id u limit => follows _ _ howned.still _ _⟩

end Frugal

/-- Anything but an update of a status that is made by somebody else. -/
def onlyRuntimesUpdate : Choice → Prop
  | .spawn _ _ (.ask (.updateStatus _ _) _) => False
  | _ => True

private theorem held_of_isBeginning {job : Job} (h : isBeginning job = true) : held job = [] := by
  cases job with
  | dispatcher d => cases d <;> first | rfl | cases h
  | poll poll => cases poll <;> first | rfl | cases h
  | reclaim pass => cases pass <;> first | rfl | cases h
  | _ => rfl

/-- Whatever happens among frugal runtimes, they stay so. -/
theorem Frugal.step (h : Frugal most x m es) (hmost : 1 ≤ most) (hfits : most ≤ Row.mostAttempts) {c : Choice}
    (ok : onlyRuntimesUpdate c) (hstep : x.step c = some (y, es')) : ∃ m', Frugal most y m' (es ++ es') := by
  cases System.happens_of_step hstep with
  | @spawned p i round reply job free begins =>
    refine ⟨m, (h.setSeat p i ?_ ?_).silent rfl⟩
    · rw [held_of_isBeginning begins]
      intro t ht
      cases ht
    · rintro id u limit rfl
      exact ok
  | @acted p i how s' y es₁ serves =>
    obtain ⟨m', hafter, hcopied, howned⟩ := h.serve hmost hfits rfl serves
    rw [← List.append_assoc]
    exact ⟨m', (hafter.setSeat p i hcopied howned).silent (moves_credits _ _)⟩
  | @landed k a r drifts =>
    obtain ⟨m', hafter, -⟩ := h.perform hmost hfits a (h.drifting _ (List.mem_of_getElem? drifts))
    exact ⟨m', { hafter with drifting := fun c hc => hafter.drifting c (List.mem_of_mem_eraseIdx hc) }⟩
  | @cancelled p =>
    have hafter := h.modify p (f := fun r => { r with cancelled := true }) fun _ => rfl
    exact ⟨m, hafter.silent rfl⟩
  | timed => exact ⟨m, { h.silent rfl with }⟩

theorem frugal_of_reaches {wall : Timestamp} {settings : Nat → Settings} (hb : b = .memory .empty ∨ b = .table .fresh)
    (hmost : 1 ≤ most) (hfits : most ≤ Row.mostAttempts) (hsettings : ∀ p, (settings p).maxAttempts = most)
    (h : System.Reaches onlyRuntimesUpdate (.start b wall settings) x es) : ∃ m, Frugal most x m es := by
  induction h with
  | start => exact ⟨.empty, frugal_start hb hsettings⟩
  | step _ ok hstep ih =>
    obtain ⟨m, hfrugal⟩ := ih
    exact hfrugal.step hmost hfits ok hstep

/-- **Main theorem.**  Let any number of runtimes allow `most` attempts each and share a store of either kind, in which
nobody else changes the status of a task.  Whatever happens in whatever order, the store can always be listed, no task
in it has been claimed more than `most` times or has a version above `2 * most`, every failed task has used up its
attempts, and no task, stored or removed, has changed its status more than `2 * most` times. -/
theorem System.Reaches.within_budget {wall : Timestamp} {settings : Nat → Settings}
    (hb : b = .memory .empty ∨ b = .table .fresh) (hmost : 1 ≤ most) (hfits : most ≤ Row.mostAttempts)
    (hsettings : ∀ p, (settings p).maxAttempts = most)
    (h : System.Reaches onlyRuntimesUpdate (.start b wall settings) x es) :
    (∀ now, ∃ tasks, x.store.perform now .list = (.ok tasks, x.store) ∧ ∀ t ∈ tasks,
      t.attempts ≤ most ∧ t.version ≤ 2 * most ∧ (t.status = .failed → t.attempts = most)) ∧
      ∀ id, moveCount id es ≤ 2 * most := by
  obtain ⟨m, hfrugal⟩ := frugal_of_reaches hb hmost hfits hsettings h
  refine ⟨fun now => ⟨_, hfrugal.ledger.represents.list now, fun t ht => ?_⟩, hfrugal.few⟩
  obtain ⟨t', ht', rfl⟩ := List.mem_map.1 ht
  have hfind := hfrugal.ledger.ordered.find?_of_mem ht'
  have hwithin := hfrugal.within t'.id t' hfind
  have hle := hwithin.attempts_le
  rw [x.store.shows_attempts (by omega), Backend.shows_version, Backend.shows_status]
  exact ⟨hle, hwithin.version_le, hwithin.attempts_eq⟩

/-- A task is created, listed and claimed; its worker is told to stop, and another runtime finds it much later. -/
def oneFailure : List Choice :=
  [[.spawn 0 0 (.ask (.create ⟨"text", "user"⟩) none), .act 0 0 .go, .spawn 0 0 (.poll .starting)],
    List.replicate 7 (.act 0 0 .go), [.spawn 0 1 (.worker .idle)], List.replicate 6 (.act 0 1 .go),
    [.act 0 1 (.draw 3000), .cancel 0, .act 0 1 .interrupt, .act 0 1 .go,
      .setWall ⟨100000, 0, by decide, by decide, by decide⟩, .spawn 1 0 (.reclaim .listing)],
    List.replicate 8 (.act 1 0 .go)].flatten

/-- A task that may be claimed once fails after one attempt, and the budget holds. -/
theorem System.within_budget_of_one_failure : ∃ x es,
    System.Reaches onlyRuntimesUpdate
      (.start (.memory .empty) default fun _ => { Settings.standard with maxAttempts := 1 }) x es ∧
      (∃ t, x.store.perform default .list = (.ok [t], x.store) ∧ t.status = .failed) ∧
      (∀ now, ∃ tasks, x.store.perform now .list = (.ok tasks, x.store) ∧ ∀ t ∈ tasks,
        t.attempts ≤ 1 ∧ t.version ≤ 2 * 1 ∧ (t.status = .failed → t.attempts = 1)) ∧
      ∀ id, moveCount id es ≤ 2 * 1 := by
  have allowed : ∀ c ∈ oneFailure, onlyRuntimesUpdate c := by simp [oneFailure, onlyRuntimesUpdate]
  have reaches := System.Reaches.start.run
    (x := .start (.memory .empty) default fun _ => { Settings.standard with maxAttempts := 1 }) allowed rfl
  have within := reaches.within_budget (.inl rfl) (by decide) (by decide) fun _ => rfl
  exact ⟨_, _, reaches, ⟨_, rfl, rfl⟩, within⟩

end Interleaving

end Backlog

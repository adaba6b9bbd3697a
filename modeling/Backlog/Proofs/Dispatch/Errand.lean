import Backlog.Dispatch.Transition
import Backlog.Proofs.Store.Recall
import Backlog.Proofs.Store.Rowwise

/-!
# A transition and its store

A transition makes its updates in a store in which nobody else touches the task.  An attempt that fails for a passing
reason may take effect all the same, at any later moment, before or after the attempts that follow it, or never.  Others
may do to the rest of the store what they like, and the token does not fire.

Key facts: as long as every attempt has failed, one landing changes the task and the next attempt finds it changed
(`Errand.Sound`), so that the update takes effect once at most and the transition knows of it
(`Errand.Reaches.takes_effect_once`).
-/

namespace Backlog.Dispatch

open Store

/-- A transition on its way, with the store and what has come of its attempts. -/
structure Errand where
  store : Backend
  stage : Transition
  /-- The results of the attempts, in order. -/
  attempts : List (Except StoreError Unit)
  /-- How many of the failed attempts may still take effect. -/
  drifting : Nat
  /-- How many attempts have taken effect. -/
  landings : Nat
  /-- How many steps the transition has made. -/
  steps : Nat

namespace Errand

def start (s : Settings) (b : Backend) : Errand := ⟨b, .start s, [], 0, 0, 0⟩

/-- How many updates have taken effect when one ends like this. -/
def effect : Except StoreError Unit → Nat
  | .ok () => 1
  | .error _ => 0

variable {s : Settings} {t : Task} {u : StatusUpdate}

/-- What may happen next: an attempt is answered by the store, or fails for a passing reason and drifts on; what drifts
takes effect now; a pause is over; the look at the stored task is answered; or others do something that leaves the task
as it is. -/
inductive Moves (s : Settings) (t : Task) (u : StatusUpdate) (x : Errand) : Errand → Prop where
  | attempt {limit : Option Duration} {interrupted : Option Transition} {next : Except StoreError Unit → Transition}
      (wall : Timestamp) {result : Except StoreError Unit} {b : Backend}
      (asks : x.stage.next s t.id u = .call (.updateStatus t.id u) limit interrupted next)
      (served : x.store.perform wall (.updateStatus t.id u) = (.answered result, b)) :
    Moves s t u x
      { x with
        store := b, stage := next result, attempts := x.attempts ++ [result]
        landings := x.landings + effect result, steps := x.steps + 1 }
  | miss {limit : Option Duration} {interrupted : Option Transition} {next : Except StoreError Unit → Transition}
      {e : StoreError} (asks : x.stage.next s t.id u = .call (.updateStatus t.id u) limit interrupted next)
      (transient : e.isTransient = true) :
    Moves s t u x
      { x with
        stage := next (.error e), attempts := x.attempts ++ [.error e]
        drifting := x.drifting + 1, steps := x.steps + 1 }
  | land {n : Nat} (wall : Timestamp) {result : Except StoreError Unit} {b : Backend} (drifts : x.drifting = n + 1)
      (served : x.store.perform wall (.updateStatus t.id u) = (.answered result, b)) :
    Moves s t u x
      { x with store := b, drifting := n, landings := x.landings + effect result }
  | rest {span : Duration} {interrupted : Option Transition} {next : Transition}
      (pauses : x.stage.next s t.id u = .sleep span interrupted next) :
    Moves s t u x { x with stage := next, steps := x.steps + 1 }
  | look {limit : Option Duration} {interrupted : Option Transition}
      {next : Except StoreError (Option Task) → Transition} (wall : Timestamp) {found : Except StoreError (Option Task)}
      {b : Backend} (asks : x.stage.next s t.id u = .call (.getFresh t.id) limit interrupted next)
      (served : x.store.perform wall (.getFresh t.id) = (.answered found, b)) :
    Moves s t u x { x with store := b, stage := next found, steps := x.steps + 1 }
  | others {b : Backend} (ordered : b.Ordered) (agrees : x.store.AgreesAt t.id b) : Moves s t u x { x with store := b }

/-- What can come of an errand. -/
inductive Reaches (s : Settings) (t : Task) (u : StatusUpdate) (x₀ : Errand) : Errand → Prop where
  | start : Reaches s t u x₀ x₀
  | step {x y : Errand} (h : Reaches s t u x₀ x) (m : x.Moves s t u y) : Reaches s t u x₀ y

/-! ### What every move keeps -/

/-- The results are all errors that may pass. -/
def AllMissed (attempts : List (Except StoreError Unit)) : Prop :=
  ∀ result ∈ attempts, ∃ e, result = .error e ∧ e.isTransient = true

theorem AllMissed.concat {attempts : List (Except StoreError Unit)} {e : StoreError} (h : AllMissed attempts)
    (he : e.isTransient = true) : AllMissed (attempts ++ [.error e]) := by
  intro result hresult
  rcases List.mem_append.1 hresult with hold | hnew
  · exact h result hold
  · exact ⟨e, List.mem_singleton.1 hnew, he⟩

/-- How many steps a transition makes at most from where it stands. -/
def left (s : Settings) : Transition → Nat
  | .updating failures _ => 2 * (s.updateRetries - failures) + 2
  | .pausing _ failures _ => 2 * (s.updateRetries - failures) + 1
  | .confirming _ => 1
  | .done _ => 0

/-- What is known of the attempts where a transition stands. -/
def Accords (s : Settings) (attempts : List (Except StoreError Unit)) (landings : Nat) : Transition → Prop
  | .updating failures _ => attempts.length = failures ∧ failures ≤ s.updateRetries ∧ AllMissed attempts
  | .pausing e failures _ =>
    attempts.length = failures + 1 ∧ failures < s.updateRetries ∧ AllMissed attempts ∧ e.isTransient = true
  | .confirming _ => landings = 1
  | .done (.ok ()) => landings = 1
  | .done (.error e) => attempts.length = s.updateRetries + 1 ∧ AllMissed attempts ∧ e.isTransient = true

/-- The task as an update leaves it in a store. -/
def moved (b : Backend) (t : Task) (u : StatusUpdate) : Task := (u.adjusted b.timeOf).applyTo t

/-- The store keeps the task, as it was or as the update leaves it, and the transition stands where its attempts have
brought it. -/
structure Sound (s : Settings) (b : Backend) (t : Task) (u : StatusUpdate) (x : Errand) : Prop where
  ordered : x.store.Ordered
  timeOf : x.store.timeOf = b.timeOf
  keeps : x.landings = 0 ∧ x.store.Keeps t ∨ x.landings = 1 ∧ x.store.Keeps (moved b t u)
  begun : x.attempts = [] → x.drifting = 0 ∧ x.landings = 0
  accords : Accords s x.attempts x.landings x.stage
  steps : x.steps + left s x.stage ≤ 2 * s.updateRetries + 2

variable {b : Backend} {x y : Errand}

theorem sound_start (hb : b.Ordered) (keeps : b.Keeps t) : (start s b).Sound s b t u where
  ordered := hb
  timeOf := rfl
  keeps := .inl ⟨rfl, keeps⟩
  begun _ := ⟨rfl, rfl⟩
  accords := ⟨rfl, Nat.zero_le _, fun _ h => nomatch h⟩
  steps := by
    show 0 + (2 * (s.updateRetries - 0) + 2) ≤ 2 * s.updateRetries + 2
    omega

theorem refusal?_eq_none (version : u.expectedVersion = some t.version)
    (allowed : t.status.canMoveTo u.status = true) : u.refusal? t = none := by
  rw [StatusUpdate.refusal?_eq_none_iff]
  refine ⟨fun v hv => ?_, allowed⟩
  rw [version] at hv
  exact Option.some.inj hv

/-- A task that an update has moved has another version than the update expects. -/
theorem refusal?_moved (version : u.expectedVersion = some t.version) (b : Backend) :
    u.refusal? (moved b t u) = some (.version t.version (moved b t u).version) := by
  have hne : (moved b t u).version ≠ t.version := by
    show t.version + 1 ≠ t.version
    omega
  unfold StatusUpdate.refusal?
  rw [version]
  exact if_pos hne

/-- Once an update was made the task has moved, by this update or by one before it. -/
theorem Sound.of_served (h : x.Sound s b t u) (room : t.HasRoom) (version : u.expectedVersion = some t.version)
    (allowed : t.status.canMoveTo u.status = true) {wall : Timestamp} {result : Except StoreError Unit} {b' : Backend}
    (served : x.store.perform wall (.updateStatus t.id u) = (.answered result, b')) :
    b'.Ordered ∧ b'.timeOf = b.timeOf ∧ x.landings + effect result = 1 ∧ b'.Keeps (moved b t u) ∧
      (result = .ok () ∨ x.landings = 1 ∧ ∃ reason, result = .error (.conflict t.id reason)) := by
  have hordered := h.ordered.perform wall (.updateStatus t.id u)
  have htime := x.store.timeOf_perform wall (.updateStatus t.id u)
  rw [served] at hordered htime
  refine ⟨hordered, htime.trans h.timeOf, ?_⟩
  rcases h.keeps with ⟨hnone, hkeeps⟩ | ⟨hone, hkeeps⟩
  · obtain ⟨hanswer, hafter⟩ := hkeeps.updateStatus room wall (refusal?_eq_none version allowed)
    rw [served] at hanswer hafter
    rw [h.timeOf] at hafter
    cases hanswer
    exact ⟨by rw [hnone]; rfl, hafter, .inl rfl⟩
  · obtain ⟨reason, hrefused⟩ := hkeeps.refused h.ordered wall (refusal?_moved version b)
    cases served.symm.trans hrefused
    exact ⟨hone, hkeeps, .inr ⟨hone, reason, rfl⟩⟩

/-- After an update has landed the task looks as the update leaves it. -/
theorem looksApplied_moved (version : u.expectedVersion = some t.version) (b b' : Backend) :
    Transition.looksApplied u (b'.shows (moved b t u)) = true := by
  unfold Transition.looksApplied
  rw [version]
  simp [moved, StatusUpdate.adjusted]

/-! ### Where a transition asks and rests -/

section

variable {st next : Transition} {limit : Option Duration} {interrupted : Option Transition} {id : Int}

theorem exists_updating {next : Except StoreError Unit → Transition}
    (asks : st.next s id u = .call (.updateStatus id u) limit interrupted next) :
    ∃ failures backoff, st = .updating failures backoff ∧ next = Transition.afterUpdate s failures backoff := by
  cases st with
  | updating failures backoff =>
    cases asks
    exact ⟨failures, backoff, rfl, rfl⟩
  | _ => cases asks

theorem exists_confirming {next : Except StoreError (Option Task) → Transition}
    (asks : st.next s id u = .call (.getFresh id) limit interrupted next) :
    ∃ e, st = .confirming e ∧ next = Transition.afterLookup u e := by
  cases st with
  | confirming e =>
    cases asks
    exact ⟨e, rfl, rfl⟩
  | _ => cases asks

theorem exists_pausing {span : Duration} (pauses : st.next s id u = .sleep span interrupted next) :
    ∃ e failures backoff, st = .pausing e failures backoff ∧ next = .updating (failures + 1) backoff.double := by
  cases st with
  | pausing e failures backoff =>
    cases pauses
    exact ⟨e, failures, _, rfl, rfl⟩
  | _ => cases pauses

end

/-- A failed attempt is followed by a pause, or it was the last one that may be made. -/
theorem accords_afterUpdate {attempts : List (Except StoreError Unit)} {failures landings : Nat}
    {backoff : Duration} {e : StoreError} (h : Accords s attempts landings (.updating failures backoff))
    (he : e.isTransient = true) :
    Accords s (attempts ++ [.error e]) landings (Transition.afterUpdate s failures backoff (.error e)) ∧
      left s (Transition.afterUpdate s failures backoff (.error e)) + 1 ≤ left s (.updating failures backoff) := by
  obtain ⟨hlength, hle, hmissed⟩ := h
  have hconflict := StoreError.isConflict_of_isTransient he
  have hcount : (attempts ++ [(.error e : Except StoreError Unit)]).length = failures + 1 := by
    rw [List.length_append, hlength]
    rfl
  by_cases hlt : failures < s.updateRetries
  · have hafter : Transition.afterUpdate s failures backoff (.error e) = .pausing e failures backoff := by
      simp [Transition.afterUpdate, hconflict, he, hlt]
    rw [hafter]
    exact ⟨⟨hcount, hlt, hmissed.concat he, he⟩, Nat.le_refl _⟩
  · have hafter : Transition.afterUpdate s failures backoff (.error e) = .done (.error e) := by
      simp [Transition.afterUpdate, hconflict, hlt]
    rw [hafter]
    refine ⟨⟨by omega, hmissed.concat he, he⟩, ?_⟩
    show 0 + 1 ≤ 2 * (s.updateRetries - failures) + 2
    omega

theorem Sound.miss (h : x.Sound s b t u) {limit : Option Duration} {interrupted : Option Transition}
    {next : Except StoreError Unit → Transition} {e : StoreError}
    (asks : x.stage.next s t.id u = .call (.updateStatus t.id u) limit interrupted next)
    (transient : e.isTransient = true) :
    Sound s b t u
      { x with
        stage := next (.error e), attempts := x.attempts ++ [.error e]
        drifting := x.drifting + 1, steps := x.steps + 1 } := by
  obtain ⟨failures, backoff, hstage, rfl⟩ := exists_updating asks
  have haccords := h.accords
  have hsteps := h.steps
  rw [hstage] at haccords hsteps
  obtain ⟨hafter, hleft⟩ := accords_afterUpdate haccords transient
  refine ⟨h.ordered, h.timeOf, h.keeps, fun hnil => ?_, hafter, ?_⟩
  · simp at hnil
  · simp only
    omega

theorem Sound.exists_answer (h : x.Sound s b t u) (room : t.HasRoom) (version : u.expectedVersion = some t.version)
    (allowed : t.status.canMoveTo u.status = true) (wall : Timestamp) :
    ∃ result b', x.store.perform wall (.updateStatus t.id u) = (.answered result, b') := by
  rcases h.keeps with ⟨-, hkeeps⟩ | ⟨-, hkeeps⟩
  · exact ⟨.ok (), _, Prod.ext (hkeeps.updateStatus room wall (refusal?_eq_none version allowed)).1 rfl⟩
  · obtain ⟨reason, hrefused⟩ := hkeeps.refused h.ordered wall (refusal?_moved version b)
    exact ⟨_, _, hrefused⟩

theorem afterUpdate_conflict {failures : Nat} {backoff : Duration} {id : Int} {reason : ConflictReason}
    (h : 0 < failures) :
    Transition.afterUpdate s failures backoff (.error (.conflict id reason)) = .confirming (.conflict id reason) :=
  if_pos ⟨rfl, h⟩

/-- The first attempt finds the task as it was. -/
theorem Sound.failures_pos (h : x.Sound s b t u) {failures : Nat} {backoff : Duration} (landed : x.landings = 1)
    (accords : Accords s x.attempts x.landings (.updating failures backoff)) : 0 < failures := by
  have hlength := accords.1
  rcases Nat.eq_zero_or_pos failures with hzero | hpos
  · have hnil : x.attempts = [] := List.eq_nil_of_length_eq_zero (hlength.trans hzero)
    have hfirst := (h.begun hnil).2
    omega
  · exact hpos

theorem Accords.landed {attempts : List (Except StoreError Unit)} {landings : Nat} {st : Transition}
    (h : Accords s attempts landings st) : Accords s attempts 1 st := by
  cases st with
  | confirming e => rfl
  | done result =>
    cases result with
    | ok a => rfl
    | error e => exact h
  | _ => exact h

theorem Sound.attempt (h : x.Sound s b t u) (room : t.HasRoom) (version : u.expectedVersion = some t.version)
    (allowed : t.status.canMoveTo u.status = true) {limit : Option Duration} {interrupted : Option Transition}
    {next : Except StoreError Unit → Transition} {wall : Timestamp} {result : Except StoreError Unit} {b' : Backend}
    (asks : x.stage.next s t.id u = .call (.updateStatus t.id u) limit interrupted next)
    (served : x.store.perform wall (.updateStatus t.id u) = (.answered result, b')) :
    Sound s b t u
      { x with
        store := b', stage := next result, attempts := x.attempts ++ [result]
        landings := x.landings + effect result, steps := x.steps + 1 } := by
  obtain ⟨failures, backoff, hstage, rfl⟩ := exists_updating asks
  obtain ⟨hordered, htime, hlanded, hkeeps, hresult⟩ := h.of_served room version allowed served
  have haccords := h.accords
  have hsteps := h.steps
  rw [hstage] at haccords hsteps
  simp only [left] at hsteps
  refine ⟨hordered, htime, .inr ⟨hlanded, hkeeps⟩, fun hnil => by simp at hnil, ?_, ?_⟩
  all_goals rcases hresult with rfl | ⟨hone, reason, rfl⟩
  · exact hlanded
  · have hpos : 0 < failures := h.failures_pos hone haccords
    simp only [afterUpdate_conflict hpos]
    exact hlanded
  · simp only [Transition.afterUpdate, left]
    omega
  · have hpos : 0 < failures := h.failures_pos hone haccords
    simp only [afterUpdate_conflict hpos, left]
    omega

theorem Sound.land (h : x.Sound s b t u) (room : t.HasRoom) (version : u.expectedVersion = some t.version)
    (allowed : t.status.canMoveTo u.status = true) {n : Nat} {wall : Timestamp} {result : Except StoreError Unit}
    {b' : Backend} (drifts : x.drifting = n + 1)
    (served : x.store.perform wall (.updateStatus t.id u) = (.answered result, b')) :
    Sound s b t u
      { x with store := b', drifting := n, landings := x.landings + effect result } := by
  obtain ⟨hordered, htime, hlanded, hkeeps, -⟩ := h.of_served room version allowed served
  refine ⟨hordered, htime, .inr ⟨hlanded, hkeeps⟩, fun hnil => ?_, ?_, h.steps⟩
  · have hzero := (h.begun hnil).1
    omega
  · simp only [hlanded]
    exact h.accords.landed

theorem Sound.look (h : x.Sound s b t u) (version : u.expectedVersion = some t.version) {limit : Option Duration}
    {interrupted : Option Transition} {next : Except StoreError (Option Task) → Transition} {wall : Timestamp}
    {found : Except StoreError (Option Task)} {b' : Backend}
    (asks : x.stage.next s t.id u = .call (.getFresh t.id) limit interrupted next)
    (served : x.store.perform wall (.getFresh t.id) = (.answered found, b')) :
    Sound s b t u { x with store := b', stage := next found, steps := x.steps + 1 } := by
  obtain ⟨e, hstage, rfl⟩ := exists_confirming asks
  have hone : x.landings = 1 := by
    have haccords := h.accords
    rwa [hstage] at haccords
  have hkeeps : x.store.Keeps (moved b t u) := by
    rcases h.keeps with ⟨hnone, -⟩ | ⟨-, hkeeps⟩
    · omega
    · exact hkeeps
  cases served.symm.trans (hkeeps.getFresh wall)
  have hafter : Transition.afterLookup u e (.ok (some (x.store.shows (moved b t u)))) = .done (.ok ()) :=
    if_pos (looksApplied_moved version b x.store)
  have hsteps := h.steps
  rw [hstage] at hsteps
  refine ⟨h.ordered, h.timeOf, h.keeps, h.begun, ?_, ?_⟩
  · simp only [hafter]
    exact hone
  · simp only [hafter]
    exact hsteps

theorem Sound.rest (h : x.Sound s b t u) {span : Duration} {interrupted : Option Transition} {next : Transition}
    (pauses : x.stage.next s t.id u = .sleep span interrupted next) :
    Sound s b t u { x with stage := next, steps := x.steps + 1 } := by
  obtain ⟨e, failures, backoff, hstage, rfl⟩ := exists_pausing pauses
  have haccords := h.accords
  have hsteps := h.steps
  rw [hstage] at haccords hsteps
  obtain ⟨hlength, hlt, hmissed, -⟩ := haccords
  refine ⟨h.ordered, h.timeOf, h.keeps, h.begun, ⟨hlength, hlt, hmissed⟩, ?_⟩
  simp only [left] at hsteps ⊢
  omega

theorem Sound.others (h : x.Sound s b t u) {b' : Backend} (ordered : b'.Ordered) (agrees : x.store.AgreesAt t.id b') :
    Sound s b t u { x with store := b' } := by
  refine ⟨ordered, agrees.timeOf_eq.trans h.timeOf, ?_, h.begun, h.accords, h.steps⟩
  rcases h.keeps with ⟨hnone, hkeeps⟩ | ⟨hone, hkeeps⟩
  · exact .inl ⟨hnone, hkeeps.of_agreesAt agrees⟩
  · exact .inr ⟨hone, hkeeps.of_agreesAt agrees⟩

theorem Sound.moves (h : x.Sound s b t u) (room : t.HasRoom) (version : u.expectedVersion = some t.version)
    (allowed : t.status.canMoveTo u.status = true) (m : x.Moves s t u y) : y.Sound s b t u := by
  cases m with
  | attempt wall asks served => exact h.attempt room version allowed asks served
  | miss asks transient => exact h.miss asks transient
  | land wall drifts served => exact h.land room version allowed drifts served
  | rest pauses => exact h.rest pauses
  | look wall asks served => exact h.look version asks served
  | others ordered agrees => exact h.others ordered agrees

/-- Where a transition is not over it comes further when the store answers, or when its pause is over. -/
theorem Sound.exists_moves (h : x.Sound s b t u) (room : t.HasRoom) (version : u.expectedVersion = some t.version)
    (allowed : t.status.canMoveTo u.status = true) (goesOn : ∀ result, x.stage ≠ .done result) :
    ∃ y, x.Moves s t u y ∧ y.steps = x.steps + 1 := by
  cases hstage : x.stage with
  | updating failures backoff =>
    have asks : x.stage.next s t.id u = .call (.updateStatus t.id u) (some s.storeTimeout) none
        (Transition.afterUpdate s failures backoff) := by
      rw [hstage]
      rfl
    obtain ⟨result, b', hserved⟩ := h.exists_answer room version allowed default
    exact ⟨_, .attempt default asks hserved, rfl⟩
  | pausing e failures backoff =>
    have pauses : x.stage.next s t.id u
        = .sleep backoff (some (.done (.error e))) (.updating (failures + 1) backoff.double) := by
      rw [hstage]
      rfl
    exact ⟨_, .rest pauses, rfl⟩
  | confirming e =>
    have asks : x.stage.next s t.id u = .call (.getFresh t.id) (some s.storeTimeout) none
        (Transition.afterLookup u e) := by
      rw [hstage]
      rfl
    rcases h.keeps with ⟨-, hkeeps⟩ | ⟨-, hkeeps⟩
    · exact ⟨_, .look default asks (hkeeps.getFresh default), rfl⟩
    · exact ⟨_, .look default asks (hkeeps.getFresh default), rfl⟩
  | done result => exact absurd hstage (goesOn result)

theorem Reaches.sound (hb : b.Ordered) (keeps : b.Keeps t) (room : t.HasRoom)
    (version : u.expectedVersion = some t.version) (allowed : t.status.canMoveTo u.status = true)
    (h : (Errand.start s b).Reaches s t u x) : x.Sound s b t u := by
  induction h with
  | start => exact sound_start hb keeps
  | step _ m ih => exact ih.moves room version allowed m

/-- **Main theorem.**  Nobody else changes the task, and attempts of a transition may fail for passing reasons and still
take effect, at any time.  Then the store keeps the task as it was, or as one update leaves it, which took effect once.
The transition ends with an error only after all its attempts have failed for passing reasons, and with the last of
these errors; it succeeds if an attempt was answered by the store, and then the update has taken effect.  It comes to an
end, and as long as it has not it can go on. -/
theorem Reaches.takes_effect_once (hb : b.Ordered) (keeps : b.Keeps t) (room : t.HasRoom)
    (version : u.expectedVersion = some t.version) (allowed : t.status.canMoveTo u.status = true)
    (h : (Errand.start s b).Reaches s t u x) :
    (x.landings = 0 ∧ x.store.Keeps t ∨ x.landings = 1 ∧ x.store.Keeps ((u.adjusted b.timeOf).applyTo t)) ∧
    (∀ e, x.stage = .done (.error e) → e.isTransient = true ∧ x.attempts.length = s.updateRetries + 1 ∧
      ∀ result ∈ x.attempts, ∃ e', result = .error e' ∧ e'.isTransient = true) ∧
    (x.stage = .done (.ok ()) → x.landings = 1) ∧
    (∀ result, x.stage = .done result →
      (∃ answer ∈ x.attempts, ∀ e, answer = .error e → e.isTransient = false) → result = .ok ()) ∧
    x.steps ≤ 2 * s.updateRetries + 2 ∧
    ((∃ result, x.stage = .done result) ∨ ∃ y, x.Moves s t u y ∧ y.steps = x.steps + 1) := by
  have hsound := h.sound hb keeps room version allowed
  have haccords := hsound.accords
  refine ⟨hsound.keeps, fun e hstage => ?_, fun hstage => ?_, fun result hstage hanswered => ?_, ?_, ?_⟩
  · rw [hstage] at haccords
    exact ⟨haccords.2.2, haccords.1, haccords.2.1⟩
  · rw [hstage] at haccords
    exact haccords
  · cases result with
    | ok a => rfl
    | error e =>
      rw [hstage] at haccords
      obtain ⟨answer, hmem, hlasting⟩ := hanswered
      obtain ⟨e', rfl, htransient⟩ := haccords.2.1 answer hmem
      rw [hlasting e' rfl] at htransient
      cases htransient
  · exact Nat.le_trans (Nat.le_add_right _ _) hsound.steps
  · by_cases hdone : ∃ result, x.stage = .done result
    · exact .inl hdone
    · exact .inr (hsound.exists_moves room version allowed fun result hstage => hdone ⟨result, hstage⟩)

/-- A claim times out and takes effect during the pause that follows; the next attempt is refused, and the stored task
shows that the claim was made. -/
theorem takes_effect_once_of_lateLanding : ∃ (t : Task) (b : Backend) (x : Errand),
    b.Keeps t ∧ (start .standard b).Reaches .standard t ((StatusUpdate.claim default).expecting 0) x ∧
      x.stage = .done (.ok ()) ∧ x.attempts.length = 2 ∧ x.landings = 1 ∧
      x.store.Keeps (((StatusUpdate.claim default).expecting 0).applyTo t) := by
  let t : Task := { (default : Task) with id := 1 }
  let u : StatusUpdate := (StatusUpdate.claim default).expecting 0
  let b : Backend := .memory ⟨1, [t]⟩
  have hkeeps : b.Keeps t := rfl
  have hordered : b.Ordered := ⟨by decide, by decide⟩
  obtain ⟨x, hreaches, hstage, hattempts, hlandings⟩ : ∃ x : Errand, (start .standard b).Reaches .standard t u x ∧
      x.stage = .done (.ok ()) ∧ x.attempts.length = 2 ∧ x.landings = 1 := by
    have hfirst : (start .standard b).Moves .standard t u _ := .miss (e := .timeout "update_status" .zero) rfl rfl
    have hmissed := Reaches.start.step hfirst
    have hlanded := hmissed.step (.land default rfl rfl)
    have hrested := hlanded.step (.rest rfl)
    have hrefused := hrested.step (.attempt default rfl rfl)
    exact ⟨_, hrefused.step (.look default rfl rfl), rfl, rfl, rfl⟩
  obtain ⟨hstored, -, -, -, -, -⟩ :=
    hreaches.takes_effect_once hordered hkeeps ⟨by decide, by decide, by decide⟩ rfl rfl
  refine ⟨t, b, x, hkeeps, hreaches, hstage, hattempts, hlandings, ?_⟩
  rcases hstored with ⟨hnone, -⟩ | ⟨-, hmoved⟩
  · omega
  · exact hmoved

end Errand

end Backlog.Dispatch

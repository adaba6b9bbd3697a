import Backlog.Dispatch.Transition
import Mathlib.Algebra.Group.Nat.Defs
import Mathlib.Data.Nat.Find
import Mathlib.Order.Bounds.Defs

/-!
# How often a transition tries

A transition meets a store whose answers to its updates are given in advance, one for each update, and a token that
fires during some of its pauses or never.

Key facts: what a transition does is determined by what it meets (`Transition.Plays.unique`), the pause after an update
is the first one doubled so many times (`Transition.pauseAfter`), and both together give its whole course
(`Transition.plays_iff`).
-/

namespace Backlog.Dispatch

open Store

namespace Transition

/-! ### What a transition meets and does -/

structure Surroundings where
  /-- The results of the updates, the first of which has number one. -/
  result : Nat → Except StoreError Unit
  /-- What the look at the stored task yields. -/
  found : Except StoreError (Option Task)
  /-- Whether the token fires during the pause after an update. -/
  fires : Nat → Bool

inductive Act where
  | update (result : Except StoreError Unit)
  | pause (span : Duration)
  /-- The token fires during a pause. -/
  | breakOff (span : Duration)
  | look (found : Except StoreError (Option Task))

variable {s : Settings} {id : Int} {u : StatusUpdate} {o : Surroundings}

/-- What a transition does next after so many updates, and how many there are then. -/
inductive Acts (s : Settings) (id : Int) (u : StatusUpdate) (o : Surroundings) :
    Nat → Transition → Act → Nat → Transition → Prop where
  | update {n : Nat} {st : Transition} {next : Except StoreError Unit → Transition}
      (h : st.next s id u = .call (.updateStatus id u) (some s.storeTimeout) none next) :
    Acts s id u o n st (.update (o.result (n + 1))) (n + 1) (next (o.result (n + 1)))
  | look {n : Nat} {st : Transition} {next : Except StoreError (Option Task) → Transition}
      (h : st.next s id u = .call (.getFresh id) (some s.storeTimeout) none next) :
    Acts s id u o n st (.look o.found) n (next o.found)
  | pause {n : Nat} {st next : Transition} {span : Duration} {interrupted : Option Transition}
      (h : st.next s id u = .sleep span interrupted next) (calm : o.fires n = false) :
    Acts s id u o n st (.pause span) n next
  | breakOff {n : Nat} {st next y : Transition} {span : Duration} (h : st.next s id u = .sleep span (some y) next)
      (fires : o.fires n = true) :
    Acts s id u o n st (.breakOff span) n y

/-- What a transition does to its end, how many updates there are then, and with which result it ends. -/
inductive Plays (s : Settings) (id : Int) (u : StatusUpdate) (o : Surroundings) :
    Nat → Transition → List Act → Nat → Except StoreError Unit → Prop where
  | ended (n : Nat) (result : Except StoreError Unit) : Plays s id u o n (.done result) [] n result
  | act {n n' m : Nat} {st st' : Transition} {a : Act} {acts : List Act} {result : Except StoreError Unit}
      (h : Acts s id u o n st a n' st') (rest : Plays s id u o n' st' acts m result) :
    Plays s id u o n st (a :: acts) m result

theorem Acts.unique {n n₁ n₂ : Nat} {st st₁ st₂ : Transition} {a₁ a₂ : Act} (h₁ : Acts s id u o n st a₁ n₁ st₁)
    (h₂ : Acts s id u o n st a₂ n₂ st₂) : a₁ = a₂ ∧ n₁ = n₂ ∧ st₁ = st₂ := by
  cases h₁ with
  | update hnext₁ =>
    cases h₂ with
    | update hnext₂ =>
      cases hnext₁.symm.trans hnext₂
      exact ⟨rfl, rfl, rfl⟩
    | _ hnext₂ => cases hnext₁.symm.trans hnext₂
  | look hnext₁ =>
    cases h₂ with
    | look hnext₂ =>
      cases hnext₁.symm.trans hnext₂
      exact ⟨rfl, rfl, rfl⟩
    | _ hnext₂ => cases hnext₁.symm.trans hnext₂
  | pause hnext₁ hcalm =>
    cases h₂ with
    | pause hnext₂ =>
      cases hnext₁.symm.trans hnext₂
      exact ⟨rfl, rfl, rfl⟩
    | breakOff hnext₂ hfires =>
      rw [hcalm] at hfires
      cases hfires
    | _ hnext₂ => cases hnext₁.symm.trans hnext₂
  | breakOff hnext₁ hfires =>
    cases h₂ with
    | breakOff hnext₂ =>
      cases hnext₁.symm.trans hnext₂
      exact ⟨rfl, rfl, rfl⟩
    | pause hnext₂ hcalm =>
      rw [hcalm] at hfires
      cases hfires
    | _ hnext₂ => cases hnext₁.symm.trans hnext₂

theorem not_acts_done {n n' : Nat} {a : Act} {st : Transition} {result : Except StoreError Unit} :
    ¬ Acts s id u o n (.done result) a n' st := by
  rintro (h | h | h | h) <;> cases h

/-- What a transition meets determines what it does. -/
theorem Plays.unique {n m₁ m₂ : Nat} {st : Transition} {acts₁ acts₂ : List Act}
    {result₁ result₂ : Except StoreError Unit}
    (h₁ : Plays s id u o n st acts₁ m₁ result₁) (h₂ : Plays s id u o n st acts₂ m₂ result₂) :
    acts₁ = acts₂ ∧ m₁ = m₂ ∧ result₁ = result₂ := by
  induction h₁ generalizing acts₂ m₂ result₂ with
  | ended n result =>
    cases h₂ with
    | ended => exact ⟨rfl, rfl, rfl⟩
    | act hact => exact absurd hact not_acts_done
  | act hact₁ _ ih =>
    cases h₂ with
    | ended => exact absurd hact₁ not_acts_done
    | act hact₂ hrest₂ =>
      obtain ⟨rfl, rfl, rfl⟩ := hact₁.unique hact₂
      obtain ⟨rfl, rfl, rfl⟩ := ih hrest₂
      exact ⟨rfl, rfl, rfl⟩

/-! ### The pauses -/

/-- The pause after an update: the first pause, doubled as often as there were pauses before. -/
def pauseAfter (s : Settings) (n : Nat) : Duration :=
  ⟨min (s.retryBackoff.nanos * 2 ^ (n - 1)) Duration.longest.nanos⟩

theorem pauseAfter_one (h : s.retryBackoff ≤ .longest) : pauseAfter s 1 = s.retryBackoff := by
  have hle : s.retryBackoff.nanos ≤ Duration.longest.nanos := h
  unfold pauseAfter
  ext
  simp only [Nat.sub_self, Nat.pow_zero, Nat.mul_one]
  omega

theorem double_pauseAfter (s : Settings) (n : Nat) : (pauseAfter s (n + 1)).double = pauseAfter s (n + 2) := by
  unfold pauseAfter Duration.double
  ext
  have hpow : s.retryBackoff.nanos * 2 ^ (n + 1) = s.retryBackoff.nanos * 2 ^ n * 2 := by
    rw [Nat.pow_succ, Nat.mul_assoc]
  simp only [Nat.add_sub_cancel, show n + 2 - 1 = n + 1 from rfl, hpow]
  omega

/-! ### The course of a transition -/

namespace Surroundings

/-- Whether no further update follows on an update with this number. -/
def isLast (s : Settings) (o : Surroundings) (n : Nat) : Prop :=
  o.result n = .ok () ∨ (∃ e, o.result n = .error e ∧ e.isTransient = false) ∨ n = s.updateRetries + 1

/-- Whether an update is a repeated one, and is refused. -/
def isRefused (o : Surroundings) (n : Nat) : Bool :=
  match o.result n with
  | .error e => e.isConflict && decide (1 < n)
  | .ok () => false

/-- Whether the look at the stored task shows what the update would have made of it. -/
def showsUpdate (u : StatusUpdate) (o : Surroundings) : Bool :=
  match o.found, u.expectedVersion with
  | .ok (some t), some v => t.status = u.status ∧ t.version = v + 1
  | _, _ => false

/-- The updates up to a number, each with the pause after it. -/
def tries (s : Settings) (o : Surroundings) (n : Nat) : List Act :=
  (List.range n).flatMap fun i => [.update (o.result (i + 1)), .pause (pauseAfter s (i + 1))]

/-- What follows on the last update. -/
def closing (o : Surroundings) (n : Nat) : List Act := if o.isRefused n then [.look o.found] else []

/-- The result of a transition whose last update has this number. -/
def outcome (u : StatusUpdate) (o : Surroundings) (n : Nat) : Except StoreError Unit :=
  if o.isRefused n && o.showsUpdate u then .ok () else o.result n

theorem tries_succ (s : Settings) (o : Surroundings) (n : Nat) :
    o.tries s (n + 1) = o.tries s n ++ [.update (o.result (n + 1)), .pause (pauseAfter s (n + 1))] := by
  unfold tries
  rw [List.range_succ, List.flatMap_append]
  rfl

theorem exists_transient_of_not_isLast {n : Nat} (h : ¬ o.isLast s n) :
    ∃ e, o.result n = .error e ∧ e.isTransient = true ∧ n ≠ s.updateRetries + 1 := by
  cases hresult : o.result n with
  | ok a => exact absurd (.inl hresult) h
  | error e =>
    refine ⟨e, rfl, ?_, fun hn => h (.inr (.inr hn))⟩
    by_cases htransient : e.isTransient = true
    · exact htransient
    · exact absurd (.inr (.inl ⟨e, hresult, by simpa using htransient⟩)) h

/-- Some update is the last one. -/
theorem exists_isLeast (s : Settings) (o : Surroundings) :
    ∃ n, IsLeast {n | 0 < n ∧ o.isLast s n} n ∧ n ≤ s.updateRetries + 1 := by
  classical
  have hexists : ∃ n, 0 < n ∧ o.isLast s n := ⟨s.updateRetries + 1, Nat.succ_pos _, .inr (.inr rfl)⟩
  refine ⟨Nat.find hexists, ⟨Nat.find_spec hexists, fun m hm => Nat.find_min' hexists hm⟩, ?_⟩
  exact Nat.find_min' hexists ⟨Nat.succ_pos _, .inr (.inr rfl)⟩

end Surroundings

theorem afterUpdate_of_isTransient {e : StoreError} {failures : Nat} (h : e.isTransient = true)
    (hlt : failures < s.updateRetries) (backoff : Duration) :
    afterUpdate s failures backoff (.error e) = .pausing e failures backoff := by
  simp [afterUpdate, h, hlt, StoreError.isConflict_of_isTransient h]

theorem afterLookup_eq (u : StatusUpdate) (e : StoreError) (o : Surroundings) :
    afterLookup u e o.found = .done (if o.showsUpdate u then .ok () else .error e) := by
  unfold Surroundings.showsUpdate
  cases o.found with
  | error e' => rfl
  | ok found =>
    cases found with
    | none => rfl
    | some t =>
      cases hversion : u.expectedVersion with
      | none => simp [afterLookup, looksApplied, hversion]
      | some v =>
        simp only [afterLookup, looksApplied, hversion]
        split <;> rfl

/-- An update that fails for a passing reason is followed by a pause and the next one, unless it was the last. -/
theorem Plays.retry {failures m : Nat} {backoff : Duration} {acts : List Act} {result : Except StoreError Unit}
    (again : ¬ o.isLast s (failures + 1)) (below : failures < s.updateRetries) (calm : o.fires (failures + 1) = false)
    (rest : Plays s id u o (failures + 1) (.updating (failures + 1) backoff.double) acts m result) :
    Plays s id u o failures (.updating failures backoff)
      (.update (o.result (failures + 1)) :: .pause backoff :: acts) m result := by
  obtain ⟨e, hresult, htransient, -⟩ := Surroundings.exists_transient_of_not_isLast again
  have hact : Acts s id u o failures (.updating failures backoff) _ _ _ := .update rfl
  rw [hresult, afterUpdate_of_isTransient htransient below] at hact
  rw [hresult]
  exact .act hact (.act (.pause rfl calm) rest)

/-- What leads up to an update that is not preceded by a last one. -/
theorem Plays.of_tries (h : s.retryBackoff ≤ .longest) {n m : Nat} {acts : List Act} {result : Except StoreError Unit}
    (again : ∀ i, 0 < i → i ≤ n → ¬ o.isLast s i) (below : n ≤ s.updateRetries)
    (calm : ∀ i, 0 < i → i ≤ n → o.fires i = false)
    (rest : Plays s id u o n (.updating n (pauseAfter s (n + 1))) acts m result) :
    Plays s id u o 0 (start s) (o.tries s n ++ acts) m result := by
  induction n generalizing acts with
  | zero =>
    rw [pauseAfter_one h] at rest
    exact rest
  | succ n ih =>
    rw [Surroundings.tries_succ, List.append_assoc]
    refine ih (fun i hpos hle => again i hpos (by omega)) (by omega) (fun i hpos hle => calm i hpos (by omega)) ?_
    rw [← double_pauseAfter] at rest
    exact .retry (again (n + 1) (by omega) (by omega)) (by omega) (calm (n + 1) (by omega) (by omega)) rest

/-- The last update is followed by a look at the stored task if it was refused, and by nothing otherwise. -/
theorem Plays.of_isLast {failures : Nat} {backoff : Duration} (last : o.isLast s (failures + 1)) :
    Plays s id u o failures (.updating failures backoff) (.update (o.result (failures + 1)) :: o.closing (failures + 1))
      (failures + 1) (o.outcome u (failures + 1)) := by
  have hact : Acts s id u o failures (.updating failures backoff) _ _ _ := .update rfl
  refine .act hact ?_
  unfold Surroundings.closing Surroundings.outcome Surroundings.isRefused
  cases hresult : o.result (failures + 1) with
  | ok a => exact .ended _ _
  | error e =>
    by_cases hrefused : e.isConflict = true ∧ 0 < failures
    · obtain ⟨hconflict, hpos⟩ := hrefused
      have hafter : afterUpdate s failures backoff (.error e) = .confirming e := by
        simp [afterUpdate, hconflict, hpos]
      have hlook : Acts s id u o (failures + 1) (.confirming e) _ _ _ := .look rfl
      rw [afterLookup_eq] at hlook
      rw [hafter]
      simp only [hconflict, show 1 < failures + 1 by omega, decide_true, Bool.and_true, if_true, Bool.true_and]
      exact .act hlook (.ended _ _)
    · have hafter : afterUpdate s failures backoff (.error e) = .done (.error e) := by
        rw [afterUpdate, if_neg hrefused, if_neg]
        rintro ⟨htransient, hlt⟩
        rcases last with hok | ⟨e', he', hnot⟩ | hn
        · rw [hresult] at hok
          cases hok
        · rw [hresult] at he'
          cases he'
          rw [htransient] at hnot
          cases hnot
        · omega
      have hnot : (e.isConflict && decide (1 < failures + 1)) = false := by
        by_cases hconflict : e.isConflict = true
        · have hzero : ¬ 0 < failures := fun hpos => hrefused ⟨hconflict, hpos⟩
          simp [show ¬ 1 < failures + 1 by omega]
        · simp [hconflict]
      rw [hafter]
      simp only [hnot, Bool.false_eq_true, if_false, Bool.false_and]
      exact .ended _ _

/-- A token that fires during the pause after an update ends the transition with the result of this update. -/
theorem Plays.of_fires {failures : Nat} {backoff : Duration} (again : ¬ o.isLast s (failures + 1))
    (below : failures < s.updateRetries) (fires : o.fires (failures + 1) = true) :
    Plays s id u o failures (.updating failures backoff) [.update (o.result (failures + 1)), .breakOff backoff]
      (failures + 1) (o.result (failures + 1)) := by
  obtain ⟨e, hresult, htransient, -⟩ := Surroundings.exists_transient_of_not_isLast again
  have hact : Acts s id u o failures (.updating failures backoff) _ _ _ := .update rfl
  rw [hresult, afterUpdate_of_isTransient htransient below] at hact
  rw [hresult]
  exact .act hact (.act (.breakOff rfl fires) (.ended _ _))

/-- **Main theorem.**  Whatever a store answers to the updates of a transition, they go up to the first that succeeds or
fails for good, but are no more than the retries and one.  Between two of them the transition pauses, twice as long each
time, up to the longest span; and it ends with the result of the last one, unless this is a repeated one and refused:
then it looks at the stored task once and takes the update for done if the task has the status and the version that the
update would have given it.  A token that fires during a pause ends the transition with the result of the update before
the pause. -/
theorem plays_iff (s : Settings) (id : Int) (u : StatusUpdate) (o : Surroundings) (h : s.retryBackoff ≤ .longest) :
    ∃ n, IsLeast {n | 0 < n ∧ o.isLast s n} n ∧ n ≤ s.updateRetries + 1 ∧
      ((∀ i, 0 < i → i < n → o.fires i = false) → ∀ acts calls result,
        Plays s id u o 0 (start s) acts calls result ↔
          acts = o.tries s (n - 1) ++ .update (o.result n) :: o.closing n ∧ calls = n ∧ result = o.outcome u n) ∧
      ∀ i, 0 < i → i < n → o.fires i = true → (∀ j, 0 < j → j < i → o.fires j = false) → ∀ acts calls result,
        Plays s id u o 0 (start s) acts calls result ↔
          acts = o.tries s (i - 1) ++ [.update (o.result i), .breakOff (pauseAfter s i)] ∧ calls = i ∧
            result = o.result i := by
  obtain ⟨n, hleast, hle⟩ := Surroundings.exists_isLeast s o
  obtain ⟨⟨hpos, hlast⟩, hlower⟩ := hleast
  have again (i : Nat) (hi : 0 < i) (hlt : i < n) : ¬ o.isLast s i := fun hi' => by
    have hge : n ≤ i := hlower ⟨hi, hi'⟩
    omega
  -- what is played is determined, so that one play is all of them
  have only {acts' : List Act} {calls' : Nat} {result' : Except StoreError Unit}
      (hplays : Plays s id u o 0 (start s) acts' calls' result') (acts : List Act) (calls : Nat)
      (result : Except StoreError Unit) :
      Plays s id u o 0 (start s) acts calls result ↔ acts = acts' ∧ calls = calls' ∧ result = result' := by
    constructor
    · intro hother
      exact hother.unique hplays
    · rintro ⟨rfl, rfl, rfl⟩
      exact hplays
  refine ⟨n, ⟨⟨hpos, hlast⟩, hlower⟩, hle, fun hcalm => only ?_, fun i hi hlt hfires hcalm => only ?_⟩
  · obtain ⟨k, rfl⟩ : ∃ k, n = k + 1 := ⟨n - 1, by omega⟩
    have hend : Plays s id u o k (.updating k (pauseAfter s (k + 1))) _ _ _ := .of_isLast hlast
    exact .of_tries h (fun i hi hle => again i hi (by omega)) (by omega) (fun i hi hle => hcalm i hi (by omega)) hend
  · obtain ⟨k, rfl⟩ : ∃ k, i = k + 1 := ⟨i - 1, by omega⟩
    have hend : Plays s id u o k (.updating k (pauseAfter s (k + 1))) _ _ _ :=
      .of_fires (again (k + 1) hi hlt) (by omega) hfires
    exact .of_tries h (fun j hj hle => again j hj (by omega)) (by omega) (fun j hj hle => hcalm j hj (by omega)) hend

/-- A store that does not acknowledge the first update and refuses the second one, while the stored task shows that the
first one was made. -/
def Surroundings.lostAnswer : Surroundings where
  result n := if n = 1 then .error (.unavailable "") else .error (.conflict 1 (.version 0 1))
  found := .ok (some { (default : Task) with id := 1, status := .processing, version := 1 })
  fires _ := false

theorem plays_of_lostAnswer : Settings.standard.retryBackoff ≤ .longest ∧
    ∃ acts, Plays .standard 1 ((StatusUpdate.claim default).expecting 0) .lostAnswer 0 (start .standard) acts 2
      (.ok ()) := by
  have hbackoff : Settings.standard.retryBackoff ≤ .longest := by decide
  obtain ⟨n, ⟨⟨hpos, hlast⟩, hlower⟩, -, hcourse, -⟩ :=
    plays_iff .standard 1 ((StatusUpdate.claim default).expecting 0) .lostAnswer hbackoff
  have hle : n ≤ 2 := hlower ⟨by decide, .inr (.inl ⟨_, rfl, rfl⟩)⟩
  have hne : n ≠ 1 := by
    rintro rfl
    rcases hlast with hok | ⟨e, he, hnot⟩ | hn
    · cases hok
    · cases he
      cases hnot
    · cases hn
  obtain rfl : n = 2 := by omega
  exact ⟨hbackoff, _, (hcourse (fun i _ _ => rfl) _ _ _).2 ⟨rfl, rfl, rfl⟩⟩

end Transition

end Backlog.Dispatch

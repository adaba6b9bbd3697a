import Backlog.Dispatch.Worker
import Backlog.Proofs.Interleaving.Landing
import Backlog.Proofs.Store.Agreement

/-!
# The order of the moments of a task

A claim writes the moment at which the work on a task begins, and a completion the moment at which it has ended, each
without a look at the other one.  What relates them is the version: a completion expects the version after a claim, and
as long as the task has that version, it is in processing since a moment before the one that the completion writes.

Key facts: timely updates leave tasks behind whose moments are in order (`Timely.applyTo`), and an update that is timely
stays so, however long it drifts, while the clock does not go back (`Timely.advances`).
-/

namespace Backlog

namespace Timestamp

theorem not_lt_self (a : Timestamp) : ¬ a < a := by
  rw [lt_iff]
  omega

theorem not_lt_trans {a b c : Timestamp} (h : ¬ b < a) (h' : ¬ c < b) : ¬ c < a := by
  rw [lt_iff] at h h' ⊢
  omega

theorem lt_of_not_lt_of_lt {a b c : Timestamp} (h : ¬ b < a) (h' : b < c) : a < c := by
  rw [lt_iff] at h h' ⊢
  omega

theorem lt_of_lt_of_not_lt {a b c : Timestamp} (h : a < b) (h' : ¬ c < b) : a < c := by
  rw [lt_iff] at h h' ⊢
  omega

theorem latest_eq_or (a b : Timestamp) : a.latest b = a ∨ a.latest b = b := by
  unfold latest
  split
  · exact .inr rfl
  · exact .inl rfl

theorem lt_latest {a b c : Timestamp} (h : c < b) : c < a.latest b := by
  unfold latest
  split
  · exact h
  · rename_i hnot
    exact lt_of_lt_of_not_lt h hnot

theorem eq_of_not_lt {a b : Timestamp} (h : ¬ a < b) (h' : ¬ b < a) : a = b := by
  rw [lt_iff] at h h'
  obtain ⟨second, nano⟩ : a.second = b.second ∧ a.nano = b.nano := by omega
  cases a
  cases b
  cases second
  cases nano
  rfl

theorem not_latest_lt (a b : Timestamp) : ¬ a.latest b < a := by
  unfold latest
  split
  · rename_i h
    rw [lt_iff] at h ⊢
    omega
  · exact not_lt_self a

/-- Only in the last second of the calendar is there a moment without one that is a microsecond later. -/
theorem lt_addMicro {t : Timestamp} (h : t.second < lastSecond) : t < t.addMicro := by
  have hfirst := t.first_le
  unfold addMicro
  split
  · rw [lt_iff]
    dsimp only
    omega
  · have hnano : (t.nano + 1000) % 1000000000 < nanoLimit (t.second + 1) := by
      unfold nanoLimit
      split <;> omega
    have hkept : firstSecond ≤ t.second + 1 ∧ t.second + 1 ≤ lastSecond ∧
        (t.nano + 1000) % 1000000000 < nanoLimit (t.second + 1) := ⟨by omega, by omega, hnano⟩
    unfold ofUnix?
    rw [dif_pos hkept, Option.getD_some, lt_iff]
    dsimp only
    omega

end Timestamp

open Dispatch Store

/-! ### Moments that are kept -/

/-- A store keeps a moment as it is, and also the one a microsecond later, which there is. -/
def Store.Backend.Dates (b : Backend) (t : Timestamp) : Prop :=
  t < t.addMicro ∧ b.timeOf t = t ∧ b.timeOf t.addMicro = t.addMicro

/-- A store in memory keeps every moment but the last ones of the calendar. -/
theorem Store.Backend.dates_memory (m : Memory) {t : Timestamp} (h : t.second < Timestamp.lastSecond) :
    (Backend.memory m).Dates t := ⟨Timestamp.lt_addMicro h, rfl, rfl⟩

private theorem second_lt_of_hasPlainYear {t : Timestamp} (h : t.HasPlainYear) : t.second < Timestamp.lastSecond := by
  have hle := t.le_last
  by_contra hnot
  have hlast : t.second = Timestamp.lastSecond := by omega
  have hyear := h.2
  unfold Timestamp.date at hyear
  rw [hlast] at hyear
  exact absurd hyear (by decide)

/-- A store of either kind keeps the moments of the years that are written with four digits. -/
theorem Store.Backend.dates_of_hasPlainYear (b : Backend) {t : Timestamp} (h : t.HasPlainYear)
    (hnext : t.addMicro.HasPlainYear) : b.Dates t := by
  have hsecond := second_lt_of_hasPlainYear h
  cases b with
  | memory m => exact dates_memory m hsecond
  | table t => exact ⟨Timestamp.lt_addMicro hsecond, asStored_of_hasPlainYear h, asStored_of_hasPlainYear hnext⟩

/-- Work that began at a moment which a store keeps has ended later, and the store keeps that moment, too. -/
theorem Store.Backend.Dates.finishOf {b : Backend} {start now : Timestamp} (hstart : b.Dates start)
    (hnow : b.Dates now) :
    start < Worker.finishOf start now ∧ b.timeOf (Worker.finishOf start now) = Worker.finishOf start now := by
  obtain ⟨hlt, -, hkept⟩ := hstart
  refine ⟨Timestamp.lt_latest hlt, ?_⟩
  unfold Worker.finishOf
  rcases Timestamp.latest_eq_or now start.addMicro with heq | heq
  · rw [heq]
    exact hnow.2.1
  · rw [heq]
    exact hkept

/-- Work does not end later than a moment before its end exactly if that moment is its end, as the clock shows it, and
at least a microsecond after its start. -/
theorem Worker.not_lt_finishOf_iff {start now s : Timestamp} (past : ¬ now < s) :
    ¬ s < Worker.finishOf start now ↔ s = now ∧ ¬ s < start.addMicro := by
  unfold Worker.finishOf
  constructor
  · intro hnot
    refine ⟨Timestamp.eq_of_not_lt (fun hlt => hnot ?_) past, fun hlt => hnot (Timestamp.lt_latest hlt)⟩
    exact Timestamp.lt_of_lt_of_not_lt hlt (Timestamp.not_latest_lt now start.addMicro)
  · rintro ⟨rfl, hnot⟩
    rcases Timestamp.latest_eq_or s start.addMicro with heq | heq
    · rw [heq]
      exact Timestamp.not_lt_self s
    · rw [heq]
      exact hnot

/-! ### Tasks whose moments are in order -/

/-- The moments of a task are in order: it has begun, not after the given moment, if it is in processing, and it has
ended exactly if it is completed, at a moment that suits its start. -/
structure Task.Timed (suits : Option Timestamp → Timestamp → Prop) (now : Timestamp) (t : Task) : Prop where
  processing : t.status = .processing → ∃ start, t.startedAt = some start
  completed : t.status = .completed → ∃ finish, t.endedAt = some finish ∧ suits t.startedAt finish
  unfinished : t.status ≠ .completed → t.endedAt = none
  started : ∀ start, t.startedAt = some start → ¬ now < start

theorem Task.Timed.later {suits suits' : Option Timestamp → Timestamp → Prop} {now now' : Timestamp} {t : Task}
    (h : t.Timed suits now) (imp : ∀ o finish, suits o finish → suits' o finish) (later : ¬ now' < now) :
    t.Timed suits' now' where
  processing := h.processing
  completed hstatus := by
    obtain ⟨finish, hfinish, hsuits⟩ := h.completed hstatus
    exact ⟨finish, hfinish, imp _ _ hsuits⟩
  unfinished := h.unfinished
  started start hs := Timestamp.not_lt_trans (h.started start hs) later

namespace Interleaving

variable {b b' : Backend} {m m' : Memory} {id version : Int} {now now' : Timestamp}
  {kind kind' : Option Timestamp → Prop} {suits suits' : Option Timestamp → Timestamp → Prop} {u : StatusUpdate}
  {t : Task}

/-- A task is past a version, and as long as it is at the next one, it is in processing and its start is of a kind. -/
def Engaged (m : Memory) (id version : Int) (kind : Option Timestamp → Prop) : Prop :=
  m.Passed id version ∧ ∀ t, m.find? id = some t → t.version = version + 1 → t.status = .processing ∧ kind t.startedAt

theorem Engaged.imp (h : Engaged m id version kind) (imp : ∀ o, kind o → kind' o) : Engaged m id version kind' := by
  refine ⟨h.1, fun t ht hversion => ?_⟩
  obtain ⟨hstatus, hkind⟩ := h.2 t ht hversion
  exact ⟨hstatus, imp _ hkind⟩

/-- A task that is in processing is engaged with the version from which it has come. -/
theorem engaged_of_find? (hm : m.Ordered) (ht : m.find? id = some t) (status : t.status = .processing)
    (hversion : t.version = version + 1) (hkind : kind t.startedAt) : Engaged m id version kind := by
  have hid := hm.le_lastId t (Memory.mem_of_find? ht)
  rw [Memory.id_of_find? ht] at hid
  refine ⟨⟨hid, fun t' ht' => ?_⟩, fun t' ht' _ => ?_⟩
  all_goals
    rw [ht] at ht'
    cases ht'
  · omega
  · exact ⟨status, hkind⟩

theorem Engaged.advances (h : Engaged m id version kind) (hm : m.Ordered) (advances : Advances b m b' m') :
    Engaged m' id version kind := by
  cases advances with
  | stay => exact h
  | @hear r r' wall now' heard =>
    obtain ⟨hpassed, hengaged⟩ := h
    refine ⟨hpassed.perform hm now' r', fun t' ht' hversion => ?_⟩
    rcases hm.origin now' r' ht' with ⟨new, -, hid, -⟩ | ⟨t, ht, rfl | ⟨text, -, rfl⟩ | ⟨u, -, -, rfl⟩⟩
    · have hold := hpassed.1
      omega
    · exact hengaged t' ht hversion
    · exact hengaged t ht hversion
    · -- a task that is moved now was past the version before
      have hlt := hpassed.2 t ht
      rw [StatusUpdate.applyTo_version] at hversion
      omega

/-- The updates that keep the moments of a task in order at whatever time they reach the store. -/
inductive Timely (suits : Option Timestamp → Timestamp → Prop) (m : Memory) (now : Timestamp) (id : Int) :
    StatusUpdate → Prop where
  | claim {start : Timestamp} {expected : Option Int} (begun : ¬ now < start) :
    Timely suits m now id ⟨.processing, some start, none, expected⟩
  | completion {finish : Timestamp} {version : Int} (engaged : Engaged m id version fun o => suits o finish) :
    Timely suits m now id ⟨.completed, none, some finish, some (version + 1)⟩
  | retirement {status : Status} {expected : Option Int} (ends : status ≠ .processing ∧ status ≠ .completed) :
    Timely suits m now id ⟨status, none, none, expected⟩

theorem Timely.advances (h : Timely suits m now id u) (hm : m.Ordered) (advances : Advances b m b' m')
    (imp : ∀ o finish, suits o finish → suits' o finish) (later : ¬ now' < now) : Timely suits' m' now' id u := by
  cases h with
  | claim begun => exact .claim (Timestamp.not_lt_trans begun later)
  | completion engaged => exact .completion ((engaged.advances hm advances).imp fun o => imp o _)
  | retirement ends => exact .retirement ends

/-- A timely update leaves the moments of a task in order. -/
theorem Timely.applyTo (timely : Timely suits m now id u) (h : t.Timed suits now) (ht : m.find? id = some t)
    (hu : u.refusal? t = none) : (u.applyTo t).Timed suits now := by
  obtain ⟨hexpected, hmove⟩ := StatusUpdate.refusal?_eq_none_iff.1 hu
  have hopen : t.endedAt = none := by
    refine h.unfinished fun hcompleted => ?_
    rw [hcompleted, Status.not_canMoveTo_of_terminal rfl] at hmove
    cases hmove
  cases timely with
  | @claim start expected begun =>
    refine ⟨fun _ => ⟨start, rfl⟩, fun hstatus => (by cases hstatus), fun _ => hopen, fun start' hs => ?_⟩
    cases hs
    exact begun
  | @completion finish version engaged =>
    -- it takes effect only at the version after the claim, where the stored start suits its end
    have hversion : t.version = version + 1 := hexpected _ rfl
    obtain ⟨-, hsuits⟩ := engaged.2 t ht hversion
    exact ⟨fun hstatus => (by cases hstatus), fun _ => ⟨finish, rfl, hsuits⟩, fun hstatus => absurd rfl hstatus,
      h.started⟩
  | retirement ends =>
    exact ⟨fun hstatus => absurd hstatus ends.1, fun hstatus => absurd hstatus ends.2, fun _ => hopen, h.started⟩

end Interleaving

end Backlog

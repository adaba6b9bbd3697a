import Backlog.Proofs.Store.CompareAndSwap
import Backlog.Proofs.Timestamp.Stored
import Mathlib.Data.List.TakeWhile

/-!
# Both kinds of store agree

The same requests are made of an empty store in memory and of a table in a fresh database, one after another, and each
of the two has a clock of its own.  They answer alike all the way: with the same errors, and with tasks that differ at
most in the moment at which they were created.

A table would hear other texts, show other moments or count other attempts only at its limits: a text with a zero
character, a year of more than four digits, more claims of a task than 32 bits can count, more tasks than there are
identifiers.  How often a task is changed need not be limited: every change but the last goes with a claim
(`Task.Paced`).

Key facts: stores in memory whose tasks are alike go on alike (`Memory.Alike.perform`), a table answers a plain request
as the store in memory does that it mirrors (`Table.Mirrors.perform_of_isPlain`), and so the two kinds of store agree on
every sequence of requests within these limits (`exchanges_alike`).
-/

namespace Backlog

/-- The same task, but for the moment at which it was created. -/
def Task.Alike (t t' : Task) : Prop := ∃ moment, t' = { t with createdAt := moment }

/-- A task has been claimed at most as often as its status was changed, and changed at most twice as often as it was
claimed, but for the claim that is still open and for a failure before any claim. -/
structure Task.Paced (t : Task) : Prop where
  attempts_le : (t.attempts : Int) ≤ t.version
  version_le : t.version + (if t.status = .processing then 1 else 0) ≤
    2 * t.attempts + (if t.status = .failed then 1 else 0)

namespace Store

open Sql

/-! ### Answers that are alike -/

/-- Both calls are answered, with results that are alike or with the same error. -/
inductive Outcome.Alike {α : Type} (R : α → α → Prop) : Outcome α → Outcome α → Prop where
  | ok {a a' : α} (h : R a a') : Alike R (.answered (.ok a)) (.answered (.ok a'))
  | error (e : StoreError) : Alike R (.answered (.error e)) (.answered (.error e))

/-- Answers to a request whose tasks are alike, and which are the same in all else. -/
def Request.AnswersAlike : (r : Request) → r.Answer → r.Answer → Prop
  | create _, t, t' => t.Alike t'
  | get _, o, o' => Option.Rel Task.Alike o o'
  | getFresh _, o, o' => Option.Rel Task.Alike o o'
  | list, ts, ts' => List.Forall₂ Task.Alike ts ts'
  | listByStatus _, ts, ts' => List.Forall₂ Task.Alike ts ts'
  | updateText _ _, a, a' => a = a'
  | updateStatus _ _, a, a' => a = a'
  | delete _, a, a' => a = a'

/-- Both stores list the same tasks, but for the moments at which these were created. -/
def Backend.HoldsAlike (b b' : Backend) : Prop :=
  ∀ now now', (b.perform now .list).1.Alike Request.list.AnswersAlike (b'.perform now' .list).1

/-- The same request has been answered alike by both stores, which hold the same tasks afterwards. -/
inductive Exchange.Alike : Exchange → Exchange → Prop where
  | intro {r : Request} {o o' : Outcome r.Answer} {before before' after after' : Backend}
      (answers : o.Alike r.AnswersAlike o') (tasks : after.HoldsAlike after') :
    Alike ⟨before, r, o, after⟩ ⟨before', r, o', after'⟩

/-! ### Stores in memory that are alike -/

namespace Memory

/-- Both stores have given out the same identifiers and hold the same tasks, but for the moments at which these were
created. -/
structure Alike (m m' : Memory) : Prop where
  lastId : m'.lastId = m.lastId
  tasks : List.Forall₂ Task.Alike m.tasks m'.tasks

theorem alike_empty : empty.Alike empty := ⟨rfl, .nil⟩

variable {m m' : Memory}

private theorem find?_of_alike {ts ts' : List Task} (h : List.Forall₂ Task.Alike ts ts') (id : Int) :
    Option.Rel Task.Alike (ts.find? fun t => t.id = id) (ts'.find? fun t => t.id = id) := by
  induction h with
  | nil => exact .none
  | @cons t t' ts ts' ht _ ih =>
    obtain ⟨moment, rfl⟩ := ht
    rw [List.find?_cons, List.find?_cons]
    by_cases he : t.id = id
    · subst he
      have hsame : Option.Rel Task.Alike (some t) (some { t with createdAt := moment }) := .some ⟨moment, rfl⟩
      simpa using hsame
    · simpa [he] using ih

theorem Alike.find? (h : m.Alike m') (id : Int) : Option.Rel Task.Alike (m.find? id) (m'.find? id) :=
  find?_of_alike h.tasks id

private theorem Alike.modify (h : m.Alike m') (id : Int) {f : Task → Task}
    (hf : ∀ t t', t.Alike t' → (f t).Alike (f t')) : (m.modify id f).Alike (m'.modify id f) := by
  refine ⟨h.lastId, List.rel_map (fun t t' ht => ?_) h.tasks⟩
  have hid : t'.id = t.id := by
    obtain ⟨moment, rfl⟩ := ht
    rfl
  rw [hid]
  split
  · exact hf t t' ht
  · exact ht

private theorem Alike.filter (h : m.Alike m') {p : Task → Bool} (hp : ∀ t t', t.Alike t' → p t' = p t) :
    List.Forall₂ Task.Alike (m.tasks.filter p) (m'.tasks.filter p) :=
  List.rel_filter (fun {t t'} ht => iff_of_eq (congrArg (· = true) (hp t t' ht).symm)) h.tasks

private theorem Alike.updateText (h : m.Alike m') (id : Int) (text : String) :
    (m'.updateText id text).1 = (m.updateText id text).1 ∧
      (m.updateText id text).2.Alike (m'.updateText id text).2 := by
  have hfind := h.find? id
  unfold Memory.updateText
  generalize m.find? id = o at hfind
  generalize m'.find? id = o' at hfind
  cases hfind with
  | none => exact ⟨rfl, h⟩
  | some ht =>
    refine ⟨rfl, h.modify id ?_⟩
    rintro t t' ⟨moment, rfl⟩
    exact ⟨moment, rfl⟩

private theorem Alike.updateStatus (h : m.Alike m') (id : Int) (u : StatusUpdate) :
    (m'.updateStatus id u).1 = (m.updateStatus id u).1 ∧
      (m.updateStatus id u).2.Alike (m'.updateStatus id u).2 := by
  have hfind := h.find? id
  unfold Memory.updateStatus
  generalize m.find? id = o at hfind
  generalize m'.find? id = o' at hfind
  cases hfind with
  | none => exact ⟨rfl, h⟩
  | @some t t' ht =>
    obtain ⟨moment, rfl⟩ := ht
    have hrefusal : u.refusal? { t with createdAt := moment } = u.refusal? t := rfl
    dsimp only
    rw [hrefusal]
    cases u.refusal? t with
    | some reason => exact ⟨rfl, h⟩
    | none =>
      refine ⟨rfl, h.modify id ?_⟩
      rintro t t' ⟨moment, rfl⟩
      exact ⟨moment, rfl⟩

private theorem Alike.create (h : m.Alike m') (now now' : Timestamp) (new : NewTask) :
    (m.create now new).1.Alike (m'.create now' new).1 ∧ (m.create now new).2.Alike (m'.create now' new).2 := by
  have htask : (m.create now new).1.Alike (m'.create now' new).1 := by
    unfold Memory.create
    rw [h.lastId]
    exact ⟨now', rfl⟩
  refine ⟨htask, ?_, List.rel_append h.tasks (.cons htask .nil)⟩
  show m'.lastId + 1 = m.lastId + 1
  rw [h.lastId]

private theorem Alike.delete (h : m.Alike m') (id : Int) :
    (m'.delete id).1 = (m.delete id).1 ∧ (m.delete id).2.Alike (m'.delete id).2 := by
  refine ⟨?_, h.lastId, h.filter ?_⟩
  · have hfind := h.find? id
    unfold Memory.delete
    generalize m.find? id = o at hfind
    generalize m'.find? id = o' at hfind
    cases hfind <;> rfl
  · rintro t t' ⟨moment, rfl⟩
    rfl

/-- Stores that are alike answer alike and stay alike, whatever their clocks say. -/
theorem Alike.perform (h : m.Alike m') (now now' : Timestamp) (r : Request) :
    (m.perform now r).1.Alike r.AnswersAlike (m'.perform now' r).1 ∧
      (m.perform now r).2.Alike (m'.perform now' r).2 := by
  have answered {α : Type} {a a' : Except StoreError α} (ha : a' = a) :
      Outcome.Alike (· = ·) (.answered a) (.answered a') := by
    subst ha
    cases a' with
    | ok a => exact .ok rfl
    | error e => exact .error e
  cases r with
  | create new =>
    obtain ⟨ht, hafter⟩ := h.create now now' new
    exact ⟨.ok ht, hafter⟩
  | get id => exact ⟨.ok (h.find? id), h⟩
  | getFresh id => exact ⟨.ok (h.find? id), h⟩
  | list => exact ⟨.ok h.tasks, h⟩
  | listByStatus a =>
    refine ⟨.ok (h.filter ?_), h⟩
    rintro t t' ⟨moment, rfl⟩
    rfl
  | updateText id text =>
    obtain ⟨ha, hafter⟩ := h.updateText id text
    exact ⟨answered ha, hafter⟩
  | updateStatus id u =>
    obtain ⟨ha, hafter⟩ := h.updateStatus id u
    exact ⟨answered ha, hafter⟩
  | delete id =>
    obtain ⟨hb, hafter⟩ := h.delete id
    exact ⟨answered (congrArg Except.ok hb), hafter⟩

end Memory

/-! ### Requests that every store hears in the same way -/

/-- The request has no zero character in its texts, and its moments are in years of four digits. -/
def Request.IsPlain : Request → Prop
  | create new => '\x00' ∉ new.text.toList ∧ '\x00' ∉ new.userId.toList
  | updateText _ text => '\x00' ∉ text.toList
  | updateStatus _ u => (∀ t ∈ u.startedAt, t.HasPlainYear) ∧ ∀ t ∈ u.endedAt, t.HasPlainYear
  | _ => True

theorem Row.readable_eq_self {s : String} (h : '\x00' ∉ s.toList) : readable s = s := by
  have hall : s.toList.takeWhile (fun c => c ≠ '\x00') = s.toList := by
    rw [List.takeWhile_eq_self_iff]
    intro c hc
    have hne : c ≠ '\x00' := fun he => h (he ▸ hc)
    simpa using hne
  unfold readable
  rw [hall, String.ofList_toList]

theorem asStored_of_hasPlainYear {t : Timestamp} (h : t.HasPlainYear) : t.asStored = t := by
  unfold Timestamp.asStored
  rw [Row.readable_eq_self t.nul_notMem_storedText, Timestamp.ofStored_storedText h]

theorem map_asStored {o : Option Timestamp} (h : ∀ t ∈ o, t.HasPlainYear) : o.map Timestamp.asStored = o := by
  cases o with
  | none => rfl
  | some t => rw [Option.map_some, asStored_of_hasPlainYear (h t rfl)]

private theorem adjusted_of_plain {u : StatusUpdate} (hstarted : ∀ t ∈ u.startedAt, t.HasPlainYear)
    (hended : ∀ t ∈ u.endedAt, t.HasPlainYear) : u.adjusted Timestamp.asStored = u := by
  unfold StatusUpdate.adjusted
  rw [map_asStored hstarted, map_asStored hended]

theorem capped_of_attempts_le {t : Task} (h : t.attempts ≤ Row.mostAttempts) : t.capped = t := by
  have hattempts : Row.attemptsOf t.attempts = t.attempts := by
    unfold Row.attemptsOf
    split <;> omega
  unfold Task.capped
  rw [hattempts]

private theorem map_capped {ts : List Task} (h : ∀ t ∈ ts, t.attempts ≤ Row.mostAttempts) :
    ts.map Task.capped = ts := by
  rw [List.map_congr_left fun t ht => capped_of_attempts_le (h t ht), List.map_id']

/-- A table answers a plain request as the store in memory does that it mirrors, while no number is too large. -/
theorem Table.Mirrors.perform_of_isPlain {tab : Table} {m : Memory} (h : tab.Mirrors m) (hm : m.Ordered)
    (now : Timestamp) {r : Request} (plain : r.IsPlain) (room : m.HasRoom r)
    (few : ∀ t ∈ m.tasks, t.attempts ≤ Row.mostAttempts) :
    (tab.perform now r).1 = (m.perform now.asStored r).1 ∧
      (tab.perform now r).2.Mirrors (m.perform now.asStored r).2 := by
  have hget (id : Int) : tab.get id = .ok (m.find? id) := by
    rw [h.get]
    cases ht : m.find? id with
    | none => rfl
    | some t => rw [Option.map_some, capped_of_attempts_le (few t (Memory.mem_of_find? ht))]
  cases r with
  | create new =>
    obtain ⟨htext, huser⟩ := plain
    obtain ⟨ho, hafter⟩ := h.create hm now new room
    rw [Row.readable_eq_self htext, Row.readable_eq_self huser] at ho hafter
    rw [capped_of_attempts_le (Nat.zero_le _)] at ho
    exact ⟨ho, hafter⟩
  | get id => exact ⟨hget id, h⟩
  | getFresh id => exact ⟨hget id, h⟩
  | list =>
    refine ⟨h.list.trans ?_, h⟩
    rw [map_capped few]
    rfl
  | listByStatus a =>
    have hfew : ∀ t ∈ m.withStatus a, t.attempts ≤ Row.mostAttempts := fun t ht => few t (List.mem_filter.1 ht).1
    refine ⟨(h.withStatus a).trans ?_, h⟩
    rw [map_capped hfew]
    rfl
  | updateText id text =>
    obtain ⟨ho, hafter⟩ := h.updateText id text
    rw [Row.readable_eq_self plain] at ho hafter
    exact ⟨ho, hafter⟩
  | updateStatus id u =>
    obtain ⟨ho, hafter⟩ := h.updateStatus hm id u fun t ht hu =>
      Task.hasRoom_of_attempts_le (room t ht hu).1 (room t ht hu).2
    rw [adjusted_of_plain plain.1 plain.2] at ho hafter
    exact ⟨ho, hafter⟩
  | delete id =>
    obtain ⟨ho, hafter⟩ := h.delete id
    exact ⟨congrArg Outcome.ok ho, hafter⟩

/-! ### Calls one after another -/

/-- The calls by which requests are made of a store one after another, each at its moment. -/
def Backend.exchanges : Backend → List (Timestamp × Request) → List Exchange
  | _, [] => []
  | b, (now, r) :: rest => ⟨b, r, (b.perform now r).1, (b.perform now r).2⟩ :: (b.perform now r).2.exchanges rest

/-- The number of times that a task has been claimed. -/
def claimCount (id : Int) (calls : List Exchange) : Nat :=
  calls.countP fun c => c.update?.any fun w => w.1 = id && w.2.status = .processing

/-- The number of tasks that requests create. -/
def createCount (requests : List Request) : Nat := requests.countP fun r => r matches .create _

/-! ### Numbers that stay small -/

theorem StatusUpdate.paced_applyTo {u : StatusUpdate} {t : Task} (h : t.Paced) (hu : u.refusal? t = none) :
    (u.applyTo t).Paced := by
  obtain ⟨hattempts, hversion⟩ := h
  have hmove : t.status.canMoveTo u.status = true := (StatusUpdate.refusal?_eq_none_iff.1 hu).2
  constructor
  · show ((if u.status = .processing then t.attempts + 1 else t.attempts : Nat) : Int) ≤ t.version + 1
    split <;> omega
  · show t.version + 1 + (if u.status = .processing then 1 else 0) ≤
      2 * ((if u.status = .processing then t.attempts + 1 else t.attempts : Nat) : Int)
        + if u.status = .failed then 1 else 0
    generalize u.status = b at hmove ⊢
    generalize t.status = a at hmove hversion
    cases a <;> cases b <;> first
      | (cases hmove; done)
      | (simp at hversion ⊢; omega)

namespace Memory

/-- No number becomes too large by requests that are still to be made. -/
structure Affords (m : Memory) (asked : List (Timestamp × Request)) : Prop where
  ordered : m.Ordered
  paced : ∀ t ∈ m.tasks, t.Paced
  claims : ∀ t ∈ m.tasks, t.attempts + claimCount t.id ((Backend.memory m).exchanges asked) ≤ Row.mostAttempts
  newClaims : ∀ id, claimCount id ((Backend.memory m).exchanges asked) ≤ Row.mostAttempts
  creates : m.lastId + createCount (asked.map Prod.snd) ≤ mostInteger

variable {m m' : Memory} {now : Timestamp} {r : Request} {asked : List (Timestamp × Request)}

theorem Affords.hasRoom (h : m.Affords ((now, r) :: asked)) : m.HasRoom r := by
  cases r with
  | create new =>
    have hle := h.creates
    show m.lastId < mostInteger
    rw [List.map_cons, createCount, List.countP_cons] at hle
    simp at hle
    omega
  | updateStatus id u =>
    intro t ht _
    have hmem := mem_of_find? ht
    obtain ⟨hattempts, hversion⟩ := h.paced t hmem
    have hclaims := h.claims t hmem
    unfold Row.mostAttempts at hclaims
    refine ⟨hattempts, ?_⟩
    unfold mostInteger
    split at hversion <;> split at hversion <;> omega
  | _ => trivial

theorem Affords.attempts_le (h : m.Affords asked) {t : Task} (ht : t ∈ m.tasks) : t.attempts ≤ Row.mostAttempts :=
  Nat.le_trans (Nat.le_add_right _ _) (h.claims t ht)

private theorem lastId_perform (m : Memory) (now : Timestamp) (r : Request) :
    (m.perform now r).2.lastId = m.lastId + createCount [r] := by
  cases r with
  | updateText id text =>
    simp only [perform, updateText]
    split <;> simp [createCount, modify]
  | updateStatus id u =>
    simp only [perform, updateStatus]
    split
    · simp [createCount]
    · split <;> simp [createCount, modify]
  | _ => simp [perform, create, delete, createCount]

private theorem claimCount_cons (id : Int) (m : Memory) (now : Timestamp) (r : Request)
    (asked : List (Timestamp × Request)) :
    claimCount id ((Backend.memory m).exchanges ((now, r) :: asked)) =
      claimCount id ((Backend.memory (m.perform now r).2).exchanges asked) +
        claimCount id [⟨.memory m, r, (m.perform now r).1, .memory (m.perform now r).2⟩] := by
  unfold claimCount
  rw [Backend.exchanges, List.countP_cons, List.countP_singleton]
  rfl

private theorem claimCount_updateStatus {id : Int} {u : StatusUpdate} {t : Task} (ht : m.find? id = some t)
    (hu : u.refusal? t = none) (now : Timestamp) :
    claimCount id [⟨.memory m, .updateStatus id u, (m.perform now (.updateStatus id u)).1,
      .memory (m.perform now (.updateStatus id u)).2⟩] = if u.status = .processing then 1 else 0 := by
  have hok : (m.perform now (.updateStatus id u)).1 = .answered (.ok ()) := by
    simp only [perform, updateStatus, ht, hu]
  rw [hok]
  simp [claimCount, Exchange.update?, List.countP_cons]

theorem Affords.perform (h : m.Affords ((now, r) :: asked)) : (m.perform now r).2.Affords asked := by
  have hordered := h.ordered.perform now r
  have hnew (id : Int) : claimCount id ((Backend.memory (m.perform now r).2).exchanges asked) ≤ Row.mostAttempts := by
    have hle := h.newClaims id
    rw [claimCount_cons] at hle
    omega
  have hclaims (t : Task) (ht : t ∈ m.tasks) := h.claims t ht
  simp only [claimCount_cons] at hclaims
  -- a stored task is new or one that was there before
  have hstored (t' : Task) (ht' : t' ∈ (m.perform now r).2.tasks) : t'.Paced ∧
      t'.attempts + claimCount t'.id ((Backend.memory (m.perform now r).2).exchanges asked) ≤ Row.mostAttempts := by
    rcases h.ordered.origin now r (hordered.find?_of_mem ht') with
      ⟨new, -, -, rfl⟩ | ⟨t, ht, rfl | ⟨text, -, rfl⟩ | ⟨u, rfl, hu, rfl⟩⟩
    · refine ⟨⟨Int.le_refl 0, Int.le_refl 0⟩, ?_⟩
      rw [show (m.create now new).1.attempts = 0 from rfl, Nat.zero_add]
      exact hnew _
    · have hmem := mem_of_find? ht
      have hle := hclaims _ hmem
      exact ⟨h.paced _ hmem, by omega⟩
    · have hmem := mem_of_find? ht
      have hle := hclaims _ hmem
      have hid : t.id = ({ t with text } : Task).id := rfl
      obtain ⟨hattempts, hversion⟩ := h.paced _ hmem
      refine ⟨⟨hattempts, hversion⟩, ?_⟩
      rw [← hid]
      show t.attempts + _ ≤ _
      omega
    · have hmem := mem_of_find? ht
      have hle := hclaims _ hmem
      rw [StatusUpdate.applyTo_id] at ht ⊢
      rw [StatusUpdate.applyTo_id, claimCount_updateStatus ht hu] at hle
      refine ⟨StatusUpdate.paced_applyTo (h.paced _ hmem) hu, ?_⟩
      show (if u.status = .processing then t.attempts + 1 else t.attempts) + _ ≤ _
      split at hle <;> rename_i hstatus <;> simp only [hstatus, if_true, if_false] <;> omega
  refine ⟨hordered, fun t' ht' => (hstored t' ht').1, fun t' ht' => (hstored t' ht').2, hnew, ?_⟩
  have hle := h.creates
  rw [lastId_perform]
  have hcons : createCount (((now, r) :: asked).map Prod.snd) = createCount (asked.map Prod.snd) + createCount [r] := by
    unfold createCount
    rw [List.map_cons, List.countP_cons, List.countP_singleton]
  omega

end Memory

/-! ### The two kinds of store side by side -/

/-- A request that is made of two stores, each of which answers it at a moment of its own clock. -/
structure Posed where
  request : Request
  first : Timestamp
  second : Timestamp

namespace Posed

/-- The request as it is made of the first store. -/
def ofFirst (p : Posed) : Timestamp × Request := (p.first, p.request)

/-- The request as it is made of the second store. -/
def ofSecond (p : Posed) : Timestamp × Request := (p.second, p.request)

end Posed

namespace Memory

variable {m m' : Memory}

private theorem Alike.exists_of_mem (h : m.Alike m') (hm : m'.Ordered) {t' : Task} (ht' : t' ∈ m'.tasks) :
    ∃ t ∈ m.tasks, t.Alike t' := by
  have hfind := h.find? t'.id
  rw [hm.find?_of_mem ht'] at hfind
  cases ht : m.find? t'.id with
  | none =>
    rw [ht] at hfind
    cases hfind
  | some t =>
    rw [ht] at hfind
    cases hfind with
    | some halike => exact ⟨t, mem_of_find? ht, halike⟩

private theorem Alike.hasRoom (h : m.Alike m') {r : Request} (room : m.HasRoom r) : m'.HasRoom r := by
  cases r with
  | create new =>
    show m'.lastId < mostInteger
    rw [h.lastId]
    exact room
  | updateStatus id u =>
    intro t' ht' hu
    have hfind := h.find? id
    rw [ht'] at hfind
    cases ht : m.find? id with
    | none =>
      rw [ht] at hfind
      cases hfind
    | some t =>
      rw [ht] at hfind
      cases hfind with
      | some halike =>
        obtain ⟨moment, rfl⟩ := halike
        exact room t ht hu
  | _ => trivial

end Memory

/-- A store in memory and a table that mirrors one which is alike agree on the requests that both have room for. -/
private theorem exchanges_alike_of_mirrors {posed : List Posed} {m m' : Memory} {tab : Table} (h : m.Alike m')
    (hm : m'.Ordered) (mirrors : tab.Mirrors m') (affords : m.Affords (posed.map Posed.ofFirst))
    (plain : ∀ p ∈ posed, p.request.IsPlain) :
    List.Forall₂ Exchange.Alike ((Backend.memory m).exchanges (posed.map Posed.ofFirst))
      ((Backend.table tab).exchanges (posed.map Posed.ofSecond)) := by
  induction posed generalizing m m' tab with
  | nil => exact .nil
  | cons p posed ih =>
    have few {m m' : Memory} {asked} (h : m.Alike m') (hm : m'.Ordered) (affords : m.Affords asked) (t' : Task)
        (ht' : t' ∈ m'.tasks) : t'.attempts ≤ Row.mostAttempts := by
      obtain ⟨t, ht, halike⟩ := h.exists_of_mem hm ht'
      have hle := affords.attempts_le ht
      obtain ⟨moment, rfl⟩ := halike
      exact hle
    obtain ⟨hanswer, hmirrors⟩ := mirrors.perform_of_isPlain hm p.second (plain p (by simp))
      (h.hasRoom affords.hasRoom) (few h hm affords)
    obtain ⟨halike, hafter⟩ := h.perform p.first p.second.asStored p.request
    have hordered := hm.perform p.second.asStored p.request
    refine .cons (.intro ?_ fun now now' => ?_)
      (ih hafter hordered hmirrors affords.perform fun p hp => plain p (by simp [hp]))
    · show Outcome.Alike _ _ (tab.perform p.second p.request).1
      rw [hanswer]
      exact halike
    · show Outcome.Alike _ _ (Row.toTasks (tab.perform p.second p.request).2.rows)
      rw [hmirrors.list, map_capped (few hafter hordered affords.perform)]
      exact .ok hafter.tasks

/-- **Main theorem.**  Plain requests that are made of an empty store in memory and of a table in a fresh database are
answered alike one by one, and after each of them both hold the same tasks, whatever the two clocks say, as long as no
task is claimed 2 ^ 32 times and there are identifiers for all tasks. -/
theorem exchanges_alike (posed : List Posed) (plain : ∀ p ∈ posed, p.request.IsPlain)
    (claims : ∀ id, claimCount id ((Backend.memory .empty).exchanges (posed.map Posed.ofFirst)) < 2 ^ 32)
    (creates : createCount (posed.map Posed.request) ≤ mostInteger) :
    List.Forall₂ Exchange.Alike ((Backend.memory .empty).exchanges (posed.map Posed.ofFirst))
      ((Backend.table .fresh).exchanges (posed.map Posed.ofSecond)) := by
  refine exchanges_alike_of_mirrors Memory.alike_empty Memory.ordered_empty Table.mirrors_fresh
    ⟨Memory.ordered_empty, fun _ ht => (List.not_mem_nil ht).elim, fun _ ht => (List.not_mem_nil ht).elim,
      fun id => ?_, ?_⟩ plain
  · have hlt := claims id
    unfold Row.mostAttempts
    omega
  · rw [List.map_map]
    show (0 : Int) + createCount (posed.map Posed.request) ≤ mostInteger
    omega

/-- A task is created, claimed and claimed again, which is refused by both stores. -/
theorem exchanges_alike_of_second_claim :
    List.Forall₂ Exchange.Alike
      ((Backend.memory .empty).exchanges [(.earliest, .create ⟨"a", "u"⟩),
        (.earliest, .updateStatus 1 (.claim ⟨0, 0, by decide, by decide, by decide⟩)),
        (.earliest, .updateStatus 1 (.claim ⟨1, 0, by decide, by decide, by decide⟩)), (.earliest, .list)])
      ((Backend.table .fresh).exchanges [(.earliest, .create ⟨"a", "u"⟩),
        (.earliest, .updateStatus 1 (.claim ⟨0, 0, by decide, by decide, by decide⟩)),
        (.earliest, .updateStatus 1 (.claim ⟨1, 0, by decide, by decide, by decide⟩)), (.earliest, .list)]) := by
  have halike := exchanges_alike [⟨.create ⟨"a", "u"⟩, .earliest, .earliest⟩,
    ⟨.updateStatus 1 (.claim ⟨0, 0, by decide, by decide, by decide⟩), .earliest, .earliest⟩,
    ⟨.updateStatus 1 (.claim ⟨1, 0, by decide, by decide, by decide⟩), .earliest, .earliest⟩,
    ⟨.list, .earliest, .earliest⟩]
  refine halike ?_ (fun id => ?_) (by decide)
  · simp only [List.forall_mem_cons]
    refine ⟨⟨by decide, by decide⟩, ⟨?_, by simp [StatusUpdate.claim]⟩, ⟨?_, by simp [StatusUpdate.claim]⟩, trivial,
      fun _ hp => (List.not_mem_nil hp).elim⟩
    · rintro t ⟨⟩
      decide
    · rintro t ⟨⟩
      decide
  · exact Nat.lt_of_le_of_lt List.countP_le_length (by decide : 4 < 2 ^ 32)

end Store

end Backlog

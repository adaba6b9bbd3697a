import Backlog.Proofs.Store.Agreement
import Backlog.Proofs.Store.Keeping

/-!
# The life of a task

Any number of calls are made of an empty store, of either kind.  Every change of the status of a task adds one to its
version, and every claim one to its attempts.  A task comes back to waiting only from a claim, so its status fixes how
its version and its attempts go together (`Task.InStep`).

Key facts: a stored task goes on from what it was, and it is gone for good once it was removed (`Memory.Proceeds`); what
has ended stays as it is but for its text, and a moment that is set stays set (`Task.Succeeds`).  Every run of calls
leaves a chronicle behind, and so does every run that goes on from there (`Chronicle.run`).
-/

namespace Backlog

/-- The version and the attempts of a task go together as its status demands. -/
def Task.InStep (t : Task) : Prop :=
  match t.status with
  | .pending => t.version = 2 * t.attempts
  | .processing => 1 ≤ t.attempts ∧ t.version = 2 * t.attempts - 1
  | .completed => 1 ≤ t.attempts ∧ t.version = 2 * t.attempts
  | .failed => t.version = 2 * t.attempts + 1 ∨ 1 ≤ t.attempts ∧ t.version = 2 * t.attempts

/-- What a task may become: its moments stay set, and if it has ended it stays as it is, but for its text. -/
structure Task.Succeeds (t t' : Task) : Prop where
  started : t.startedAt.isSome = true → t'.startedAt.isSome = true
  ended : t.endedAt.isSome = true → t'.endedAt.isSome = true
  settled : t.status.isTerminal = true → t' = { t with text := t'.text }

namespace Task

theorem Succeeds.refl (t : Task) : t.Succeeds t := ⟨fun h => h, fun h => h, fun _ => rfl⟩

theorem Succeeds.trans {t t' t'' : Task} (h : t.Succeeds t') (h' : t'.Succeeds t'') : t.Succeeds t'' where
  started hs := h'.started (h.started hs)
  ended hs := h'.ended (h.ended hs)
  settled hs := by
    have hfirst := h.settled hs
    have hsecond := h'.settled (by rw [hfirst]; exact hs)
    rw [hfirst] at hsecond
    exact hsecond

theorem succeeds_text (t : Task) (text : String) : t.Succeeds { t with text } := ⟨fun h => h, fun h => h, fun _ => rfl⟩

/-- The numbers of a task that is in step are small if its attempts are. -/
theorem InStep.version_bounds {t : Task} (h : t.InStep) :
    (t.attempts : Int) ≤ t.version ∧ t.version ≤ 2 * t.attempts + 1 := by
  unfold InStep at h
  split at h <;> omega

end Task

namespace StatusUpdate

variable {u : StatusUpdate} {t : Task}

/-- An update that a task does not refuse keeps it in step. -/
theorem inStep_applyTo (h : t.InStep) (hu : u.refusal? t = none) : (u.applyTo t).InStep := by
  have hmove : t.status.canMoveTo u.status = true := (refusal?_eq_none_iff.1 hu).2
  unfold Task.InStep at h ⊢
  rw [applyTo_status, applyTo_version]
  dsimp only [applyTo]
  generalize t.status = a at h hmove
  generalize u.status = b at hmove
  -- one case for every pair of statuses; most moves are not allowed
  cases a <;> cases b <;> first
    | (cases hmove; done)
    | (simp at h ⊢; omega)

/-- A task that does not refuse an update has not ended, and the update takes no moment away. -/
theorem succeeds_applyTo (hu : u.refusal? t = none) : t.Succeeds (u.applyTo t) := by
  have hkept (o o' : Option Timestamp) (ho : o.isSome = true) : (o'.or o).isSome = true := by
    rw [Option.isSome_or, ho, Bool.or_true]
  refine ⟨hkept _ _, hkept _ _, fun hended => ?_⟩
  have hmove := (refusal?_eq_none_iff.1 hu).2
  rw [Status.not_canMoveTo_of_terminal hended] at hmove
  cases hmove

end StatusUpdate

namespace Store

open Sql

/-! ### What the calls tell -/

namespace Exchange

/-- The identifier that a call has given out. -/
def created? : Exchange → Option Int
  | ⟨_, .create _, .answered (.ok t), _⟩ => some t.id
  | _ => none

/-- The task that a call has removed. -/
def removed? : Exchange → Option Int
  | ⟨_, .delete id, .answered (.ok true), _⟩ => some id
  | _ => none

end Exchange

/-- The identifiers that calls have given out, the latest one last. -/
def createdIds (calls : List Exchange) : List Int := calls.filterMap Exchange.created?

/-- The store shows these tasks, whenever it is asked for all of them. -/
def Backend.Lists (b : Backend) (ts : List Task) : Prop := ∀ wall, b.perform wall .list = (.ok ts, b)

theorem createdIds_append (calls later : List Exchange) :
    createdIds (calls ++ later) = createdIds calls ++ createdIds later := List.filterMap_append

theorem claimCount_append (id : Int) (calls later : List Exchange) :
    claimCount id (calls ++ later) = claimCount id calls + claimCount id later := List.countP_append

variable {b b' : Backend} {m m' : Memory} {calls later : List Exchange}

namespace Backend.Represents

theorem delete (h : b.Represents m) (hm : m.Ordered) (now : Timestamp) (id : Int) :
    (b.perform now (.delete id)).1 = .ok (m.find? id).isSome :=
  (h.perform hm now (r := .delete id) fun _ _ => trivial).1

/-- A new task gets the next identifier, in a store of either kind. -/
theorem id_of_created (h : b.Represents m) (hm : m.Ordered) {now : Timestamp} {new : NewTask} {t : Task}
    (hok : (b.perform now (.create new)).1 = .ok t) : t.id = m.lastId + 1 := by
  cases b with
  | memory m' =>
    obtain rfl : m' = m := h
    cases hok
    rfl
  | table tab =>
    by_cases hroom : m.lastId < mostInteger
    · have hanswer := (Table.Mirrors.create h hm now new hroom).1
      rw [show (tab.create now new).1 = .ok t from hok] at hanswer
      cases hanswer
      rfl
    · obtain ⟨⟨e, he⟩, -⟩ := Table.Mirrors.create_of_full h now new hroom
      rw [show (tab.create now new).1 = .ok t from hok] at he
      cases he

end Backend.Represents

/-! ### One request -/

namespace Memory

/-- A request removes no other task than the one that it deletes. -/
theorem Ordered.find?_perform_eq_none (h : m.Ordered) (now : Timestamp) {r : Request} {id : Int} {t : Task}
    (ht : m.find? id = some t) (hnone : (m.perform now r).2.find? id = none) : r = .delete id := by
  by_cases hid : r.id? = some id
  · cases r with
    | delete k => rw [Option.some.inj hid]
    | updateText k text =>
      obtain rfl := Option.some.inj hid
      simp only [Memory.perform, updateText, ht] at hnone
      rw [find?_modify m k k (f := fun t => { t with text }) fun _ => rfl, if_pos rfl, ht] at hnone
      cases hnone
    | updateStatus k u =>
      obtain rfl := Option.some.inj hid
      simp only [Memory.perform, updateStatus, ht] at hnone
      split at hnone
      · rw [ht] at hnone
        cases hnone
      · rw [find?_modify m k k u.applyTo_id, if_pos rfl, ht] at hnone
        cases hnone
    | get k =>
      rw [show (m.perform now (.get k)).2.find? id = m.find? id from rfl, ht] at hnone
      cases hnone
    | getFresh k =>
      rw [show (m.perform now (.getFresh k)).2.find? id = m.find? id from rfl, ht] at hnone
      cases hnone
    | _ => cases hid
  · rw [h.find?_perform now hid ht] at hnone
    cases hnone

/-- Whatever is stored after a request and was stored before has become what it may become. -/
theorem Ordered.succeeds_perform (h : m.Ordered) (now : Timestamp) (r : Request) {id : Int} {t t' : Task}
    (ht : m.find? id = some t) (ht' : (m.perform now r).2.find? id = some t') : t.Succeeds t' := by
  rcases h.origin now r ht' with ⟨new, -, hnew, -⟩ | ⟨s, hs, hfrom⟩
  · rw [h.find?_eq_none (by omega)] at ht
    cases ht
  · rw [hs] at ht
    cases ht
    rcases hfrom with rfl | ⟨text, -, rfl⟩ | ⟨u, -, hu, rfl⟩
    · exact .refl t'
    · exact t.succeeds_text text
    · exact StatusUpdate.succeeds_applyTo hu

/-- What becomes of the tasks of a store by calls: each has gone on, or was removed for good. -/
structure Proceeds (m : Memory) (calls : List Exchange) (m' : Memory) : Prop where
  lastId_le : m.lastId ≤ m'.lastId
  fate : ∀ id t, m.find? id = some t →
    ((∃ c ∈ calls, c.removed? = some id) ∧ m'.find? id = none) ∨ ∃ t', m'.find? id = some t' ∧ t.Succeeds t'

theorem Proceeds.refl (m : Memory) : m.Proceeds [] m := ⟨Int.le_refl _, fun _ t ht => .inr ⟨t, ht, .refl t⟩⟩

/-- One more request: what is gone stays gone, because an identifier is not given out again. -/
theorem Proceeds.perform (h : m.Proceeds calls m') (hm : m.Ordered) (hm' : m'.Ordered) (now : Timestamp)
    {r : Request} {c : Exchange}
    (told : ∀ id t, m'.find? id = some t → r = .delete id → c.removed? = some id) :
    m.Proceeds (calls ++ [c]) (m'.perform now r).2 where
  lastId_le := Int.le_trans h.lastId_le (m'.lastId_le_perform now r)
  fate id t ht := by
    rcases h.fate id t ht with ⟨⟨d, hd, hremoved⟩, hgone⟩ | ⟨t', ht', hsucceeds⟩
    · refine .inl ⟨⟨d, List.mem_append_left _ hd, hremoved⟩, ?_⟩
      have hid : id ≤ m'.lastId := by
        have hle := hm.le_lastId t (mem_of_find? ht)
        rw [id_of_find? ht] at hle
        exact Int.le_trans hle h.lastId_le
      cases hback : (m'.perform now r).2.find? id with
      | none => rfl
      | some t' =>
        obtain ⟨s, hs, -⟩ := hm'.onward_perform now r hid hback
        rw [hgone] at hs
        cases hs
    · cases hafter : (m'.perform now r).2.find? id with
      | none =>
        have hdelete := hm'.find?_perform_eq_none now ht' hafter
        exact .inl ⟨⟨c, List.mem_append_right _ (List.mem_singleton_self _), told id t' ht' hdelete⟩, rfl⟩
      | some t'' => exact .inr ⟨t'', rfl, hsucceeds.trans (hm'.succeeds_perform now r ht' hafter)⟩

end Memory

/-! ### The chronicle of a run -/

/-- What is known of a store after calls: what it stands for, that its tasks are in step and were claimed no more often
than the calls tell, and that no call has given out an identifier that was used before. -/
structure Chronicle (b : Backend) (m : Memory) (calls : List Exchange) : Prop where
  represents : b.Represents m
  ordered : m.Ordered
  inStep : ∀ id t, m.find? id = some t → t.InStep
  claimed : ∀ id t, m.find? id = some t → t.attempts ≤ claimCount id calls
  given : ∀ id ∈ createdIds calls, id ≤ m.lastId
  ascending : (createdIds calls).Pairwise (· < ·)

theorem chronicle_start (h : b = .memory .empty ∨ b = .table .fresh) : Chronicle b .empty [] where
  represents := by
    rcases h with rfl | rfl
    · rfl
    · exact Table.mirrors_fresh
  ordered := Memory.ordered_empty
  inStep id t ht := by cases ht
  claimed id t ht := by cases ht
  given id hid := by cases hid
  ascending := .nil

namespace Chronicle

variable {r r' : Request} {o : Outcome r.Answer}

/-- The store has room for the numbers of a task that was not claimed too often. -/
theorem hasRoom (h : Chronicle b m calls) (claims : ∀ id, claimCount id calls < 2 ^ 32) (id : Int) (u : StatusUpdate) :
    m.HasRoom (.updateStatus id u) := by
  intro t ht _
  obtain ⟨hle, hversion⟩ := (h.inStep id t ht).version_bounds
  have hclaimed := h.claimed id t ht
  have hfew := claims id
  refine ⟨hle, ?_⟩
  unfold mostInteger
  omega

/-- After a request every task is in step, and what it was claimed is told. -/
private theorem tasks_perform (h : Chronicle b m calls) (now : Timestamp) {now' : Timestamp} (heard : b.Heard r r')
    {id : Int} {t' : Task} (ht' : (m.perform now' r').2.find? id = some t') :
    t'.InStep ∧ t'.attempts ≤ claimCount id (calls ++ [⟨b, r, (b.perform now r).1, (b.perform now r).2⟩]) := by
  rw [claimCount_append]
  rcases h.ordered.origin now' r' ht' with ⟨new, -, -, rfl⟩ | ⟨t, ht, rfl | ⟨text, -, rfl⟩ | ⟨u, rfl, hu, rfl⟩⟩
  · exact ⟨rfl, Nat.zero_le _⟩
  · exact ⟨h.inStep id _ ht, Nat.le_add_right_of_le (h.claimed id _ ht)⟩
  · exact ⟨h.inStep id t ht, Nat.le_add_right_of_le (h.claimed id t ht)⟩
  · refine ⟨StatusUpdate.inStep_applyTo (h.inStep id t ht) hu, ?_⟩
    obtain ⟨w, rfl, rfl⟩ := heard.updateStatus
    have hok : (b.perform now (.updateStatus id w)).1 = .ok () :=
      (h.represents.updateStatus_ok_iff h.ordered now id w).2 ⟨t, ht, hu⟩
    have hclaimed := h.claimed id t ht
    have hone : claimCount id [⟨b, .updateStatus id w, .ok (), (b.perform now (.updateStatus id w)).2⟩] =
        if w.status = .processing then 1 else 0 := by
      simp [claimCount, Exchange.update?, Outcome.ok, List.countP_cons]
    rw [hok, hone]
    show (if w.status = .processing then t.attempts + 1 else t.attempts) ≤ _
    split <;> omega

/-- The identifier that a call gives out is new. -/
private theorem createdIds_perform (h : Chronicle b m calls) {now now' : Timestamp}
    (hrecalled : ∀ a, (b.perform now r).1 = .ok a → ∀ t ∈ r.tasks a,
      ∃ t', b.shows t' = t ∧ (m.perform now' r').2.Recalls t') {id : Int}
    (hid : id ∈ createdIds [⟨b, r, (b.perform now r).1, (b.perform now r).2⟩]) :
    m.lastId < id ∧ id ≤ (m.perform now' r').2.lastId := by
  obtain ⟨c, hc, hcreated⟩ := List.mem_filterMap.1 hid
  obtain rfl := List.mem_singleton.1 hc
  unfold Exchange.created? at hcreated
  split at hcreated
  · rename_i before new t after heq
    injection heq with _ hr ho _
    subst hr
    have hok : (b.perform now (.create new)).1 = .ok t := eq_of_heq ho
    obtain ⟨t', hshown, hle, -⟩ := hrecalled t hok t (List.mem_singleton_self _)
    have hnext := h.represents.id_of_created h.ordered hok
    have hsame : t.id = t'.id := by rw [← hshown, Backend.shows_id]
    cases hcreated
    omega
  · cases hcreated

/-- Whatever a call does, the chronicle goes on, and what was stored at any time before proceeds. -/
theorem served (h : Chronicle b m calls) (s : Served b r o b')
    (claims : ∀ id, claimCount id calls < 2 ^ 32) :
    ∃ m', Chronicle b' m' (calls ++ [⟨b, r, o, b'⟩]) ∧ ∀ (m₀ : Memory) (earlier : List Exchange), m₀.Ordered →
      m₀.Proceeds earlier m → m₀.Proceeds (earlier ++ [⟨b, r, o, b'⟩]) m' := by
  cases s with
  | once _ now _ =>
    obtain ⟨now', r', heard, hafter, hrecalled⟩ :=
      h.represents.follows h.ordered now r fun id u hr => hr ▸ h.hasRoom claims id u
    have hlast := m.lastId_le_perform now' r'
    refine ⟨(m.perform now' r').2, ⟨hafter, h.ordered.perform now' r', fun id t ht => (h.tasks_perform now heard ht).1,
      fun id t ht => (h.tasks_perform now heard ht).2, fun id hid => ?_, ?_⟩, fun m₀ earlier hm₀ hproceeds => ?_⟩
    · rw [createdIds_append, List.mem_append] at hid
      rcases hid with hid | hid
      · exact Int.le_trans (h.given id hid) hlast
      · exact (h.createdIds_perform hrecalled hid).2
    · rw [createdIds_append, List.pairwise_append]
      refine ⟨h.ascending, ?_, fun id hid id' hid' => ?_⟩
      · exact List.Pairwise.filterMap _ (fun _ _ hfalse => hfalse.elim) (List.pairwise_singleton (fun _ _ => False) _)
      · exact Int.lt_of_le_of_lt (h.given id hid) (h.createdIds_perform hrecalled hid').1
    · refine hproceeds.perform hm₀ h.ordered now' fun id t ht hdelete => ?_
      subst hdelete
      have hr : r = .delete id := by
        rcases heard with hr | ⟨-, hr⟩
        · cases r <;> cases hr
          rfl
        · cases hr
      subst hr
      rw [h.represents.delete h.ordered now id, ht]
      rfl
  | @explained tab id u missed later =>
    -- the update has changed nothing, and what is told of it matters to nobody
    have hquiet : createdIds [⟨.table tab, .updateStatus id u, later.missedUpdate id u, .table tab⟩] = [] := rfl
    refine ⟨m, ⟨h.represents, h.ordered, h.inStep, fun j t ht => ?_, ?_, ?_⟩, fun m₀ earlier hm₀ hproceeds => ?_⟩
    · rw [claimCount_append]
      exact Nat.le_add_right_of_le (h.claimed j t ht)
    · rw [createdIds_append, hquiet, List.append_nil]
      exact h.given
    · rw [createdIds_append, hquiet, List.append_nil]
      exact h.ascending
    · exact hproceeds.perform hm₀ h.ordered default (r := .list) fun _ _ _ hr => by cases hr

/-- A run that goes on from where a chronicle was kept keeps one, and what was stored there proceeds. -/
theorem run (h : Chronicle b m calls) (rest : Run b later b') (claims : ∀ id, claimCount id (calls ++ later) < 2 ^ 32) :
    ∃ m', Chronicle b' m' (calls ++ later) ∧ m.Proceeds later m' := by
  induction rest with
  | start =>
    rw [List.append_nil]
    exact ⟨m, h, .refl m⟩
  | call _ s ih =>
    rw [← List.append_assoc] at claims ⊢
    have claims' (id : Int) := Nat.lt_of_le_of_lt (Nat.le.intro (claimCount_append id _ _).symm) (claims id)
    obtain ⟨m₁, h₁, hproceeds⟩ := ih claims'
    obtain ⟨m', h', hnext⟩ := h₁.served s claims'
    exact ⟨m', h', hnext m _ h.ordered hproceeds⟩

/-- A store whose tasks were not claimed too often shows them as they are. -/
theorem map_shows (h : Chronicle b m calls) (claims : ∀ id, claimCount id calls < 2 ^ 32) {ts : List Task}
    (hts : ∀ t ∈ ts, t ∈ m.tasks) : ts.map b.shows = ts := by
  refine (List.map_congr_left fun t ht => ?_).trans (List.map_id _)
  have hfind := h.ordered.find?_of_mem (hts t ht)
  have hclaimed := h.claimed t.id t hfind
  have hfew := claims t.id
  refine b.shows_eq_self ?_
  unfold Row.mostAttempts
  omega

theorem lists (h : Chronicle b m calls) (claims : ∀ id, claimCount id calls < 2 ^ 32) : b.Lists m.tasks := by
  intro wall
  rw [h.represents.list, h.map_shows claims fun _ ht => ht]

theorem listsByStatus (h : Chronicle b m calls) (claims : ∀ id, claimCount id calls < 2 ^ 32) (wall : Timestamp)
    (a : Status) : b.perform wall (.listByStatus a) = (.ok (m.tasks.filter fun t => t.status = a), b) := by
  have hshown := h.map_shows claims fun t (ht : t ∈ m.withStatus a) => (List.mem_filter.1 ht).1
  rw [h.represents.listByStatus, hshown]
  rfl

end Chronicle

/-- **Main theorem.**  In every run of calls on an empty store, of either kind, in which no task is claimed `2 ^ 32`
times, and wherever the run is divided: at its end every listed task is in step, the listing is in ascending order of
identifier, and a listing by status is what the listing holds of that status; a task that was listed where the run is
divided has been removed by a later call and is gone for good, or it is listed still, has kept its moments, and is the
same but for its text if it had ended; and the identifiers that were given out have only risen. -/
theorem Run.lifecycle {start : Backend} (hstart : start = .memory .empty ∨ start = .table .fresh)
    (run : Run start calls b) (rest : Run b later b') (claims : ∀ id, claimCount id (calls ++ later) < 2 ^ 32) :
    ∃ ts ts', b.Lists ts ∧ b'.Lists ts' ∧ (∀ t ∈ ts', t.InStep) ∧ (ts'.Pairwise fun t u => t.id < u.id) ∧
      (∀ wall a, b'.perform wall (.listByStatus a) = (.ok (ts'.filter fun t => t.status = a), b')) ∧
      (∀ t ∈ ts, ((∃ c ∈ later, c.removed? = some t.id) ∧ ∀ t' ∈ ts', t'.id ≠ t.id) ∨
        ∃ t' ∈ ts', t'.id = t.id ∧ t.Succeeds t') ∧
      (createdIds (calls ++ later)).Pairwise (· < ·) := by
  have claims' (id : Int) := Nat.lt_of_le_of_lt (Nat.le.intro (claimCount_append id calls later).symm) (claims id)
  obtain ⟨m, h, -⟩ := (chronicle_start hstart).run run claims'
  obtain ⟨m', h', hproceeds⟩ := h.run rest claims
  refine ⟨m.tasks, m'.tasks, h.lists claims', h'.lists claims, fun t ht => h'.inStep _ t (h'.ordered.find?_of_mem ht),
    h'.ordered.ascending, h'.listsByStatus claims, fun t ht => ?_, h'.ascending⟩
  rcases hproceeds.fate t.id t (h.ordered.find?_of_mem ht) with ⟨hremoved, hgone⟩ | ⟨t', ht', hsucceeds⟩
  · refine .inl ⟨hremoved, fun t' ht' hid => ?_⟩
    have hfind := h'.ordered.find?_of_mem ht'
    rw [hid, hgone] at hfind
    cases hfind
  · exact .inr ⟨t', Memory.mem_of_find? ht', Memory.id_of_find? ht', hsucceeds⟩

/-- A task that was created, claimed and completed has become what it may become after somebody has given it another
text and somebody else has tried to claim it. -/
theorem lifecycle_of_completed :
    ∃ ts ts',
      (Backend.memory ⟨1, [⟨1, "a", .completed, .earliest, some .earliest, some .earliest, "u", 2, 1⟩]⟩).Lists ts ∧
      (Backend.memory ⟨1, [⟨1, "b", .completed, .earliest, some .earliest, some .earliest, "u", 2, 1⟩]⟩).Lists ts' ∧
      (∀ t ∈ ts', t.InStep) ∧ ∀ t ∈ ts, ∃ t' ∈ ts', t'.id = t.id ∧ t.Succeeds t' := by
  have hcreated := Run.start.call (.once (.memory .empty) .earliest (.create ⟨"a", "u"⟩))
  have hclaimed := hcreated.call (.once _ .earliest (.updateStatus 1 (.claim .earliest)))
  have hcompleted := hclaimed.call (.once _ .earliest (.updateStatus 1 (.completion .earliest)))
  have hrenamed := Run.start.call (.once
    (.memory ⟨1, [⟨1, "a", .completed, .earliest, some .earliest, some .earliest, "u", 2, 1⟩]⟩) .earliest
    (.updateText 1 "b"))
  have hrefused := hrenamed.call (.once _ .earliest (.updateStatus 1 (.claim .earliest)))
  obtain ⟨ts, ts', hts, hts', hinStep, -, -, hfate, -⟩ := hcompleted.lifecycle (.inl rfl) hrefused fun id =>
    Nat.lt_of_le_of_lt List.countP_le_length (by decide : 5 < 2 ^ 32)
  refine ⟨ts, ts', hts, hts', hinStep, fun t ht => (hfate t ht).resolve_left ?_⟩
  rintro ⟨⟨c, hc, hremoved⟩, -⟩
  -- no later call has removed anything
  simp only [List.nil_append, List.cons_append, List.mem_cons, List.not_mem_nil, or_false] at hc
  rcases hc with rfl | rfl <;> cases hremoved

end Store

end Backlog

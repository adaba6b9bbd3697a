import Backlog.Proofs.Interleaving.System
import Backlog.Proofs.Store.Following

/-!
# Updates that reach the store

A request that reaches the store moves at most one task on, from the version that it has to the next one, and the event
that tells of it names the task and the version.

Key facts: an update is told of exactly if the task is there and does not refuse it (`landing_of_admitted`,
`landing_of_refused`), and whatever is stored afterwards is new, or was there and is the same but for its text, or has
been moved on by an update that is told of (`origin_of_heard`).  So a task has been moved on as often as its version
says, and never twice from one version (`Ledger.perform`).
-/

namespace Backlog.Interleaving

open Dispatch Simulation Store Store.Memory

variable {b : Backend} {m : Memory}

theorem versionOf?_eq (h : b.Represents m) (id : Int) : b.versionOf? id = (m.find? id).map Task.version := by
  unfold Backend.versionOf?
  rw [h.get]
  cases m.find? id with
  | none => rfl
  | some t => exact congrArg some (b.shows_version t)

theorem stateOf?_eq (h : b.Represents m) (id : Int) :
    b.stateOf? id = (m.find? id).map fun t => (t.status, t.version) := by
  unfold Backend.stateOf?
  rw [h.get]
  cases m.find? id with
  | none => rfl
  | some t =>
    show some ((b.shows t).status, (b.shows t).version) = _
    rw [b.shows_status, b.shows_version]
    rfl

theorem landing_of_admitted (h : b.Represents m) (hm : m.Ordered) (wall : Timestamp) (a : Author) {id : Int}
    {u : StatusUpdate} {t : Task} (ht : m.find? id = some t) (hu : u.refusal? t = none) :
    landing b wall a (.updateStatus id u) = [.landed a id t.version] := by
  have hok := (h.updateStatus_ok_iff hm wall id u).2 ⟨t, ht, hu⟩
  unfold landing
  dsimp only
  rw [hok, versionOf?_eq h, ht]
  rfl

theorem landing_of_refused (h : b.Represents m) (hm : m.Ordered) (wall : Timestamp) (a : Author) {id : Int}
    {u : StatusUpdate} (hrefused : ¬ ∃ t, m.find? id = some t ∧ u.refusal? t = none) :
    landing b wall a (.updateStatus id u) = [] := by
  have hnot := mt (h.updateStatus_ok_iff hm wall id u).1 hrefused
  unfold landing
  dsimp only
  split
  · rename_i a hok
    exact absurd hok hnot
  · rfl

/-- A request tells of nothing, or of the one update that it makes. -/
theorem landing_cases (h : b.Represents m) (hm : m.Ordered) (wall : Timestamp) (a : Author) (r : Request) :
    landing b wall a r = [] ∨ ∃ id u t, r = .updateStatus id u ∧ m.find? id = some t ∧ u.refusal? t = none ∧
      landing b wall a r = [.landed a id t.version] := by
  cases r with
  | updateStatus id u =>
    by_cases hadmits : ∃ t, m.find? id = some t ∧ u.refusal? t = none
    · obtain ⟨t, ht, hu⟩ := hadmits
      exact .inr ⟨id, u, t, rfl, ht, hu, landing_of_admitted h hm wall a ht hu⟩
    · exact .inl (landing_of_refused h hm wall a hadmits)
  | _ => exact .inl rfl

/-- Where a stored task comes from, and what is told of it. -/
theorem origin_of_heard (h : b.Represents m) (hm : m.Ordered) (wall : Timestamp) (a : Author) {r r' : Request}
    (heard : b.Heard r r') {now' : Timestamp} {id : Int} {t' : Task} (ht' : (m.perform now' r').2.find? id = some t') :
    (m.lastId < id ∧ (∃ new, t' = (m.create now' new).1) ∧ landing b wall a r = []) ∨
      ∃ t, m.find? id = some t ∧
        ((∃ text, t' = { t with text }) ∧ (∀ a' v, Event.landed a' id v ∉ landing b wall a r) ∨
          ∃ u, r = .updateStatus id u ∧ u.refusal? t = none ∧ t' = (u.adjusted b.timeOf).applyTo t ∧
            landing b wall a r = [.landed a id t.version]) := by
  -- an update that is admitted is the only request that moves a task
  by_cases hlands : ∃ u t, r = .updateStatus id u ∧ m.find? id = some t ∧ u.refusal? t = none
  · obtain ⟨u, t, rfl, ht, hu⟩ := hlands
    have hadjusted : (u.adjusted b.timeOf).refusal? t = none := hu
    rw [heard.eq_of_updateStatus, find?_updateStatus ht hadjusted, Option.some.injEq] at ht'
    exact .inr ⟨t, ht, .inr ⟨u, rfl, hu, ht'.symm, landing_of_admitted h hm wall a ht hu⟩⟩
  · have hsilent : ∀ a' v, Event.landed a' id v ∉ landing b wall a r := by
      intro a' v hl
      rcases landing_cases h hm wall a r with hnone | ⟨id', u, t, hr, ht, hu, hone⟩
      · rw [hnone] at hl
        cases hl
      · rw [hone, List.mem_singleton] at hl
        cases hl
        exact hlands ⟨u, t, hr, ht, hu⟩
    rcases hm.origin now' r' ht' with ⟨new, hr', hid, hnew⟩ | ⟨t, ht, rfl | ⟨text, -, rfl⟩ | ⟨u', rfl, hu', -⟩⟩
    · refine .inl ⟨by omega, ⟨new, hnew⟩, ?_⟩
      rcases heard with rfl | ⟨⟨new', rfl⟩, -⟩
      · cases r with
        | create new' => rfl
        | _ => cases hr'
      · rfl
    · exact .inr ⟨t', ht, .inl ⟨⟨t'.text, rfl⟩, hsilent⟩⟩
    · exact .inr ⟨t, ht, .inl ⟨⟨text, rfl⟩, hsilent⟩⟩
    · obtain ⟨u, rfl, rfl⟩ := heard.updateStatus
      exact absurd ⟨u, t, rfl, ht, hu'⟩ hlands

/-! ### The ledger of a store -/

/-- The task that an update has moved on, and the version from which it was moved. -/
def Event.move? : Event → Option (Int × Int)
  | .landed _ id version => some (id, version)
  | _ => none

/-- The moves that are told of. -/
def moves (es : List Event) : List (Int × Int) := es.filterMap Event.move?

/-- How often a task has been moved on. -/
def moveCount (id : Int) (es : List Event) : Nat := (moves es).countP fun c => c.1 = id

/-- Whether all the moves of a stored task are told of. -/
structure Entered (es : List Event) (id : Int) (t : Task) : Prop where
  counted : moveCount id es = t.version
  attempts_le : (t.attempts : Int) ≤ t.version
  told : ∀ version, 0 ≤ version → version < t.version → (id, version) ∈ moves es
  unmoved : t.version = 0 → t.status = .pending

/-- What is known of a store that stands for a store in memory, and of the moves that are told of. -/
structure Ledger (b : Backend) (m : Memory) (es : List Event) : Prop where
  represents : b.Represents m
  ordered : m.Ordered
  entered : ∀ id t, m.find? id = some t → Entered es id t
  passed : ∀ c ∈ moves es, m.Passed c.1 c.2
  nodup : (moves es).Nodup

variable {es es' : List Event} {x y : System} {p i : Nat} {s s' : Seat} {st : Step Job}

theorem moves_append (es es' : List Event) : moves (es ++ es') = moves es ++ moves es' := List.filterMap_append

theorem moveCount_append (id : Int) (es es' : List Event) :
    moveCount id (es ++ es') = moveCount id es + moveCount id es' := by
  unfold moveCount
  rw [moves_append, List.countP_append]

theorem few_of_append (few : ∀ id, (moveCount id (es ++ es') : Int) ≤ Sql.mostInteger) (id : Int) :
    (moveCount id es : Int) ≤ Sql.mostInteger := by
  have hfew := few id
  rw [moveCount_append] at hfew
  omega

theorem moveCount_le (id : Int) (es : List Event) : moveCount id es ≤ (moves es).length := List.countP_le_length

theorem mem_moves {c : Int × Int} : c ∈ moves es ↔ ∃ a, Event.landed a c.1 c.2 ∈ es := by
  unfold moves
  rw [List.mem_filterMap]
  constructor
  · rintro ⟨e, he, hc⟩
    cases e with
    | landed a id version =>
      cases hc
      exact ⟨a, he⟩
    | _ => cases hc
  · rintro ⟨a, ha⟩
    exact ⟨_, ha, rfl⟩

theorem moves_attempt (a : Author) (r : Request) (result : Except StoreError r.Answer) :
    moves (System.attempt a r result) = [] := by cases r <;> rfl

theorem moves_credits (a : Author) (o : Option (Int × Int)) :
    moves (o.toList.map fun c => .credited a c.1 c.2) = [] := by cases o <;> rfl

/-- A task that was not given out has not been moved. -/
theorem Ledger.moveCount_eq_zero (h : Ledger b m es) {id : Int} (hid : m.lastId < id) : moveCount id es = 0 := by
  refine List.countP_eq_zero.2 fun c hc hcid => ?_
  obtain ⟨hle, -⟩ := h.passed c hc
  have hsame : c.1 = id := of_decide_eq_true hcid
  omega

/-- A task that is found by a fresh look is stored, as far as it is shown. -/
theorem Ledger.exists_of_getFresh (h : Ledger b m es) {wall : Timestamp} {id : Int} {t : Task}
    (hfound : (b.perform wall (.getFresh id)).1 = .ok (some t)) : ∃ t', m.find? id = some t' ∧ b.shows t' = t := by
  rw [h.represents.getFresh] at hfound
  cases hfind : m.find? id with
  | none =>
    rw [hfind] at hfound
    cases hfound
  | some t' =>
    rw [hfind] at hfound
    cases hfound
    exact ⟨t', rfl, rfl⟩

theorem ledger_start (h : b = .memory .empty ∨ b = .table .fresh) : Ledger b .empty [] where
  represents := by
    rcases h with rfl | rfl
    · rfl
    · exact Table.mirrors_fresh
  ordered := ordered_empty
  entered id t ht := by cases ht
  passed c hc := by cases hc
  nodup := List.nodup_nil

/-- A task whose text is new has been moved as often as before, as far as the new events tell. -/
private theorem Entered.silent {id : Int} {t : Task} (h : Entered es id t) (text : String)
    (hsilent : ∀ a v, Event.landed a id v ∉ es') : Entered (es ++ es') id { t with text } where
  counted := by
    have hnone : moveCount id es' = 0 := by
      refine List.countP_eq_zero.2 fun c hc hcid => ?_
      obtain ⟨a, ha⟩ := mem_moves.1 hc
      rw [of_decide_eq_true hcid] at ha
      exact hsilent a c.2 ha
    rw [moveCount_append, hnone]
    exact h.counted
  attempts_le := h.attempts_le
  told v hv hlt := by
    rw [moves_append]
    exact List.mem_append_left _ (h.told v hv hlt)
  unmoved := h.unmoved

/-- A task that has just been moved from the version that it had. -/
private theorem Entered.applyTo {id : Int} {t : Task} (h : Entered es id t) (a : Author) (u : StatusUpdate) :
    Entered (es ++ [.landed a id t.version]) id (u.applyTo t) where
  counted := by
    have hone : moveCount id [Event.landed a id t.version] = 1 := by simp [moveCount, moves, Event.move?]
    have hcount := h.counted
    rw [moveCount_append, hone, StatusUpdate.applyTo_version]
    omega
  attempts_le := by
    have hle := h.attempts_le
    have hattempts : (u.applyTo t).attempts ≤ t.attempts + 1 := by
      unfold StatusUpdate.applyTo
      dsimp only
      split <;> omega
    rw [StatusUpdate.applyTo_version]
    omega
  told v hv hlt := by
    rw [StatusUpdate.applyTo_version] at hlt
    rw [moves_append, List.mem_append]
    by_cases hlast : v = t.version
    · right
      rw [hlast]
      exact List.mem_singleton_self _
    · left
      exact h.told v hv (by omega)
  unmoved hzero := by
    have hcount := h.counted
    rw [StatusUpdate.applyTo_version] at hzero
    omega

/-- Events that tell of no move leave the ledger as it is. -/
theorem Ledger.silent (h : Ledger b m es) (silent : moves es' = []) : Ledger b m (es ++ es') where
  represents := h.represents
  ordered := h.ordered
  entered id t ht := (h.entered id t ht).silent t.text fun a v hl => by
    have hmem : (id, v) ∈ moves es' := mem_moves.2 ⟨a, hl⟩
    rw [silent] at hmem
    cases hmem
  passed c hc := by
    rw [moves_append, silent, List.append_nil] at hc
    exact h.passed c hc
  nodup := by
    rw [moves_append, silent, List.append_nil]
    exact h.nodup

/-- Every request leaves a ledger behind: the store that it stands for hears it, and what it moves is entered. -/
theorem Ledger.perform (h : Ledger b m es) (wall : Timestamp) (a : Author) {r r' : Request} (heard : b.Heard r r')
    {now' : Timestamp} (hafter : (b.perform wall r).2.Represents (m.perform now' r').2) :
    Ledger (b.perform wall r).2 (m.perform now' r').2 (es ++ landing b wall a r) where
  represents := hafter
  ordered := h.ordered.perform now' r'
  entered id t' ht' := by
    rcases origin_of_heard h.represents h.ordered wall a heard ht' with
      ⟨hid, ⟨new, rfl⟩, hnone⟩ | ⟨t, ht, ⟨⟨text, rfl⟩, hsilent⟩ | ⟨u, rfl, hu, rfl, hlands⟩⟩
    · -- the identifier is new, so no event tells of it yet
      have hzero := h.moveCount_eq_zero hid
      rw [hnone, List.append_nil]
      exact ⟨congrArg Nat.cast hzero, Int.le_refl 0, fun v hv hlt => absurd hlt (Int.not_lt.2 hv), fun _ => rfl⟩
    · exact (h.entered id t ht).silent text hsilent
    · rw [hlands]
      exact (h.entered id t ht).applyTo a _
  passed c hc := by
    rw [moves_append, List.mem_append] at hc
    rcases hc with hc | hc
    · exact (h.passed c hc).perform h.ordered now' r'
    · rcases landing_cases h.represents h.ordered wall a r with hnone | ⟨id, u, t, rfl, ht, hu, hone⟩
      · rw [hnone] at hc
        cases hc
      · rw [hone] at hc
        obtain rfl : c = (id, t.version) := List.mem_singleton.1 hc
        rw [heard.eq_of_updateStatus]
        exact h.ordered.passed_of_admitted (u := u.adjusted b.timeOf) ht hu
  nodup := by
    rcases landing_cases h.represents h.ordered wall a r with hnone | ⟨id, u, t, -, ht, -, hone⟩
    · rw [hnone, List.append_nil]
      exact h.nodup
    · -- a version that was entered before is past
      have hnew : (id, t.version) ∉ moves es := by
        intro hold
        have hlt := (h.passed _ hold).2 t ht
        exact Int.lt_irrefl _ hlt
      rw [hone, moves_append, List.nodup_append]
      refine ⟨h.nodup, List.pairwise_singleton _ _, fun c hc d hd hcd => hnew ?_⟩
      obtain rfl : d = (id, t.version) := List.mem_singleton.1 hd
      exact hcd ▸ hc

/-! ### The ledger along a run -/

private theorem System.Serves.store_cases (h : x.Serves p i s st s' y es) :
    (y.store = x.store ∧ moves es = []) ∨ ∃ a r es', y.store = (x.store.perform x.wall r).2 ∧
      es = landing x.store x.wall a r ++ es' ∧ moves es' = [] := by
  cases h with
  | answered answer => exact .inr ⟨_, _, _, rfl, rfl, moves_attempt _ _ _⟩
  | failed passing => exact .inl ⟨rfl, moves_attempt _ _ _⟩
  | refused superseded => exact .inl ⟨rfl, moves_attempt _ _ _⟩
  | _ => exact .inl ⟨rfl, rfl⟩

/-- Whatever happens, the store is as it was, or it has heard one request. -/
private theorem System.store_cases {c : Choice} (h : x.step c = some (y, es)) :
    (y.store = x.store ∧ moves es = []) ∨ ∃ a r es', y.store = (x.store.perform x.wall r).2 ∧
      es = landing x.store x.wall a r ++ es' ∧ moves es' = [] := by
  cases System.happens_of_step h with
  | @acted p i how s' z es₁ serves =>
    have hcredits := moves_credits ⟨p, i, s'.round⟩ (credit? s'.job)
    rcases serves.store_cases with ⟨hstore, hmoves⟩ | ⟨a, r, es', hstore, rfl, hmoves⟩
    · exact .inl ⟨hstore, by rw [moves_append, hmoves, hcredits]; rfl⟩
    · exact .inr ⟨a, r, _, hstore, List.append_assoc _ _ _, by rw [moves_append, hmoves, hcredits]; rfl⟩
  | landed drifts => exact .inr ⟨_, _, [], rfl, (List.append_nil _).symm, rfl⟩
  | _ => exact .inl ⟨rfl, rfl⟩

/-- What becomes of a store and of the one that it stands for: both stay as they are, or both hear a request. -/
inductive Advances (b : Backend) (m : Memory) : Backend → Memory → Prop where
  | stay : Advances b m b m
  | hear {r r' : Request} (wall now' : Timestamp) (heard : b.Heard r r') :
    Advances b m (b.perform wall r).2 (m.perform now' r').2

theorem Advances.recalls {b b' : Backend} {m m' : Memory} (advances : Advances b m b' m') (hm : m.Ordered) {t : Task}
    (h : m.Recalls t) : m'.Recalls t := by
  cases advances with
  | stay => exact h
  | hear wall now' heard => exact h.perform hm now' _

/-- A request that reaches the store is heard by the store in memory for which it stands, as long as no task has been
moved too often. -/
theorem Ledger.follows (h : Ledger b m es) (wall : Timestamp) (a : Author) (r : Request)
    (few : ∀ id, (moveCount id (es ++ landing b wall a r) : Int) ≤ Sql.mostInteger) :
    ∃ now' r', b.Heard r r' ∧ (b.perform wall r).2.Represents (m.perform now' r').2 := by
  have room (id : Int) (u : StatusUpdate) (hr : r = .updateStatus id u) : m.HasRoom r := by
    subst hr
    intro t ht hu
    have hentered := h.entered id t ht
    have hcount := hentered.counted
    have hfew := few id
    have hone : moveCount id [Event.landed a id t.version] = 1 := by simp [moveCount, moves, Event.move?]
    rw [landing_of_admitted h.represents h.ordered wall a ht hu, moveCount_append, hone] at hfew
    refine ⟨hentered.attempts_le, ?_⟩
    omega
  obtain ⟨now', r', heard, hafter, -⟩ := h.represents.follows h.ordered wall r room
  exact ⟨now', r', heard, hafter⟩

/-- An update that was acknowledged has moved the task from the version that it expects. -/
theorem Ledger.state_of_ok (h : Ledger b m es) {id version : Int} {u : StatusUpdate} (wall : Timestamp)
    (a : Author) (few : ∀ k, (moveCount k (es ++ landing b wall a (.updateStatus id u)) : Int) ≤ Sql.mostInteger)
    (expects : u.expectedVersion = some version) (hok : (b.perform wall (.updateStatus id u)).1 = .ok ()) :
    ∃ a, a.canMoveTo u.status = true ∧ b.stateOf? id = some (a, version) ∧
      (b.perform wall (.updateStatus id u)).2.stateOf? id = some (u.status, version + 1) := by
  obtain ⟨t, ht, hu⟩ := (h.represents.updateStatus_ok_iff h.ordered wall id u).1 hok
  obtain ⟨hexpected, hmove⟩ := StatusUpdate.refusal?_eq_none_iff.1 hu
  obtain ⟨now', r', heard, hafter⟩ := h.follows wall a _ few
  have hadjusted : (u.adjusted b.timeOf).refusal? t = none := hu
  rw [heard.eq_of_updateStatus] at hafter
  refine ⟨t.status, hmove, ?_, ?_⟩
  · rw [stateOf?_eq h.represents, ht, ← hexpected version expects]
    rfl
  · rw [stateOf?_eq hafter, find?_updateStatus ht hadjusted, ← hexpected version expects]
    rfl

/-- The ledger goes on with whatever happens, as long as no task has been moved too often. -/
theorem Ledger.step (h : Ledger x.store m es) {c : Choice} (hstep : x.step c = some (y, es'))
    (few : ∀ id, (moveCount id (es ++ es') : Int) ≤ Sql.mostInteger) :
    ∃ m', Ledger y.store m' (es ++ es') ∧ Advances x.store m y.store m' := by
  rcases System.store_cases hstep with ⟨hstore, hmoves⟩ | ⟨a, r, es₁, hstore, rfl, hmoves⟩
  · rw [hstore]
    exact ⟨m, h.silent hmoves, .stay⟩
  · rw [← List.append_assoc] at few ⊢
    obtain ⟨now', r', heard, hafter⟩ := h.follows x.wall a r (few_of_append few)
    rw [hstore]
    exact ⟨_, (h.perform x.wall a heard hafter).silent hmoves, .hear x.wall now' heard⟩

/-- The ledger goes on along a run, and what is known of a task that was seen before stays true. -/
theorem Ledger.reaches {allowed : Choice → Prop} (h : Ledger x.store m es) (h' : System.Reaches allowed x y es')
    (few : ∀ id, (moveCount id (es ++ es') : Int) ≤ Sql.mostInteger) :
    ∃ m', Ledger y.store m' (es ++ es') ∧ ∀ t, m.Recalls t → m'.Recalls t := by
  induction h' with
  | start =>
    rw [List.append_nil]
    exact ⟨m, h, fun _ ht => ht⟩
  | step _ _ hstep ih =>
    rw [← List.append_assoc] at few ⊢
    obtain ⟨m', hledger, hrecalls⟩ := ih (few_of_append few)
    obtain ⟨m'', hledger', hadvances⟩ := hledger.step hstep few
    exact ⟨m'', hledger', fun t ht => hadvances.recalls hledger.ordered (hrecalls t ht)⟩

theorem ledger_of_reaches {b : Backend} {wall : Timestamp} {settings : Nat → Settings} {allowed : Choice → Prop}
    (hb : b = .memory .empty ∨ b = .table .fresh) (h : System.Reaches allowed (.start b wall settings) x es)
    (few : ∀ id, (moveCount id es : Int) ≤ Sql.mostInteger) : ∃ m, Ledger x.store m es := by
  have hstart : Ledger (System.start b wall settings).store .empty [] := ledger_start hb
  obtain ⟨m, hledger, -⟩ := hstart.reaches h few
  exact ⟨m, hledger⟩

end Backlog.Interleaving

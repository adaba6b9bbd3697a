import Backlog.Proofs.Dispatch.Completion
import Backlog.Proofs.Dispatch.Recovery
import Mathlib.Data.List.Nodup
import Mathlib.Data.List.Pairwise

/-!
# What one pass of the reclaiming does

A pass retires the overdue tasks that it has listed.  What becomes of a row is followed for that row alone, as long as
others leave it alone; they may do with the other rows what they like.

Key facts: a row that others leave alone has at most been updated once, by the pass (`Recovery.Reaches.fate`).  A pass
that is over has asked once for each overdue task and has counted those that were moved (`Recovery.Recovered`).  Where
nobody else changes the store and nothing fails, exactly the overdue tasks are moved (`Recovery.Cleared`), and the pass
can be brought to its end (`Recovery.Reaches.recovers`).
-/

namespace Backlog.Dispatch

open Store

variable {s : Settings} {threshold : Duration} {now : Timestamp} {others : Request → Prop} {faults : Prop}
  {b b' b₀ : Backend} {q : Queue} {deed : Deed} {deeds more : List Deed} {id : Int} {u : StatusUpdate}
  {task c : Task} {rest ts : List Task} {pass' : Reclaim}

/-- Two deeds do not ask for updates under one identifier. -/
def Deed.Apart (deed deed' : Deed) : Prop := ∀ p, deed.asked? = some p → ∀ p', deed'.asked? = some p' → p.1 ≠ p'.1

instance : Std.Symm Deed.Apart := ⟨fun _ _ h p hp p' hp' => (h p' hp' p hp).symm⟩

namespace Recovery

variable {x₀ x z : Recovery} {a : Reclaim.Account}

/-! ### One row -/

/-- A row since the tasks were listed: either it is as it was and no update of it was made, or it was updated once. -/
inductive Fate (faults : Prop) (id : Int) (b₀ b : Backend) (deeds : List Deed) : Prop where
  | left (unmade : ∀ u, (id, u) ∉ deeds.filterMap Deed.made?) (same : b₀.AgreesAt id b)
      (heard : ¬ faults → ∀ u, (id, u) ∈ deeds.filterMap Deed.asked? → ¬ b₀.Admits id u)
  | moved {u : StatusUpdate} (made : (id, u) ∈ deeds.filterMap Deed.made?) (admits : b₀.Admits id u)
      (updated : Backend.UpdatedAt id u b₀ b)

namespace Fate

theorem start (b₀ : Backend) : Fate faults id b₀ b₀ [] :=
  .left (fun _ => List.not_mem_nil) (.refl id b₀) fun _ _ h => absurd h List.not_mem_nil

theorem holds (h : Fate faults id b₀ b deeds) (held : b₀.Holds id) : b.Holds id := by
  cases h with
  | left unmade same heard => exact held.of_agreesAt same
  | moved made admits updated => exact updated.holds

theorem agree (h : Fate faults id b₀ b deeds) (agrees : b.AgreesAt id b') : Fate faults id b₀ b' deeds := by
  cases h with
  | left unmade same heard => exact .left unmade (same.trans agrees) heard
  | moved made admits updated => exact .moved made admits (updated.of_agreesAt agrees)

/-- A deed that asks nothing about the row leaves it as it is. -/
theorem aside (h : Fate faults id b₀ b deeds) (unasked : ∀ u, deed.asked? ≠ some (id, u)) :
    Fate faults id b₀ b (deeds ++ [deed]) := by
  have hunmade (u : StatusUpdate) : deed.made? ≠ some (id, u) := by
    intro hmade
    obtain rfl := Deed.made?_eq_some_iff.1 hmade
    exact unasked u rfl
  cases h with
  | left unmade same heard =>
    refine .left (fun u hu => ?_) same fun quiet u hu => ?_
    · rcases List.mem_append.1 (List.filterMap_append ▸ hu) with hbefore | hlast
      · exact unmade u hbefore
      · exact hunmade u (by simpa using hlast)
    · rcases List.mem_append.1 (List.filterMap_append ▸ hu) with hbefore | hlast
      · exact heard quiet u hbefore
      · exact absurd (by simpa using hlast) (unasked u)
  | moved made admits updated =>
    refine .moved ?_ admits updated
    rw [List.filterMap_append]
    exact List.mem_append_left _ made

/-- The update of a row for which the pass had not asked. -/
theorem settle {result : Except StoreError Unit} (h : Fate faults id b₀ b deeds)
    (new : ∀ v, (id, v) ∉ deeds.filterMap Deed.asked?) (settles : Settles faults id u b b' result) :
    Fate faults id b₀ b' (deeds ++ [.ask (.updateStatus id u) result]) := by
  have hsame : b₀.AgreesAt id b := by
    cases h with
    | left unmade same heard => exact same
    | moved made admits updated => exact absurd (Deed.mem_asked_of_mem_made made) (new _)
  cases result with
  | ok _ =>
    obtain ⟨hadmits, hupdated⟩ := settles.made rfl
    refine .moved ?_ (hadmits.of_agreesAt hsame.symm) (hsame.updatedAt hupdated)
    rw [List.filterMap_append]
    exact List.mem_append_right _ List.mem_cons_self
  | error e =>
    obtain rfl := settles.refused e rfl
    refine .left (fun v hv => ?_) hsame fun quiet v hv admits => ?_
    · rcases List.mem_append.1 (List.filterMap_append ▸ hv) with hbefore | hlast
      · exact new v (Deed.mem_asked_of_mem_made hbefore)
      · cases hlast
    · rcases List.mem_append.1 (List.filterMap_append ▸ hv) with hbefore | hlast
      · exact new v hbefore
      · cases List.mem_singleton.1 hlast
        cases settles.heard quiet (admits.of_agreesAt hsame)

end Fate

/-- A pass is about to ask for the update of a task that was listed, and has not asked for it before. -/
theorem Sound.new (h : Sound s threshold ts x₀ x deeds) (order : Ascending ts) {count : Nat}
    (stage : x.pass = .retiring now task rest count .updating) :
    task ∈ ts ∧ ∀ u, (task.id, u) ∉ deeds.filterMap Deed.asked? := by
  cases h with
  | dating done stage' books =>
    rw [stage] at stage'
    cases stage'
  | dated done stands books =>
    rw [stage] at stands
    cases stands with
    | updating cut untracked stale =>
      refine ⟨cut ▸ List.mem_append_right _ List.mem_cons_self, fun u hu => ?_⟩
      rw [books.asked] at hu
      obtain ⟨c, hc, herrand⟩ := List.mem_map.1 hu
      have hid : c.id = task.id := congrArg Prod.fst herrand
      have hless := (List.pairwise_append.1 (cut ▸ order)).2.2 c ((Reclaim.due_sublist _ _ _ _).subset hc) task
        List.mem_cons_self
      omega
    | telling cut counted => rcases counted with hstage | ⟨read, hstage⟩ <;> cases hstage

/-- What becomes of a row that others leave alone. -/
theorem Reaches.fate (h : x₀.Reaches s threshold others faults x deeds) (listed : x₀.pass = .dating ts)
    (hb : x₀.store.Ordered) (order : Ascending ts) (spares : ∀ r, others r → r.isWrite = true → r.id? ≠ some id)
    (held : x₀.store.Holds id ∨ ∀ r, ¬ others r) : Fate faults id x₀.store x.store deeds := by
  induction h with
  | start => exact .start _
  | @step x y deeds o h m ih =>
    have hordered := h.ordered hb
    cases o with
    | none =>
      rw [Option.toList_none, List.append_nil]
      cases m with
      | requested wall may =>
        refine ih.agree (hordered.agreesAt_perform (ih.holds ?_) wall (spares _ may))
        exact held.resolve_right fun nobody => nobody _ may
    | some deed =>
      have hdeals := m.deals hordered
      by_cases hasked : ∃ u, deed.asked? = some (id, u)
      · obtain ⟨u, hasked⟩ := hasked
        cases m with
        | own does met heard =>
          obtain ⟨now, task, rest, count, hstage, herrand⟩ := Reclaim.updating_of_does does hasked
          obtain ⟨rfl, -⟩ := Prod.mk.inj herrand
          obtain ⟨result, rfl⟩ := Deed.asked?_eq_some_iff.1 hasked
          exact ih.settle ((h.sound listed).new order hstage).2 (hdeals.settles _ u result rfl)
      · rw [not_exists] at hasked
        refine (ih.aside hasked).agree ?_
        cases hother : deed.asked? with
        | none =>
          rw [hdeals.aside hother]
          exact .refl id _
        | some p =>
          obtain ⟨result, rfl⟩ := Deed.asked?_eq_some_iff.1 hother
          refine (hdeals.settles p.1 p.2 result rfl).others id ?_
          rintro rfl
          exact hasked p.2 rfl

/-! ### What a pass does -/

/-- A pass asks once for the update of a task, at some moment on its way, and the update is made as is said. -/
def Tries (s : Settings) (threshold : Duration) (others : Request → Prop) (faults : Prop) (x₀ x : Recovery)
    (deeds : List Deed) (c : Task) (made : Prop) : Prop :=
  ∃ x₁ y before after result, x₀.Reaches s threshold others faults x₁ before ∧
    x₁.Deals faults (.ask (.updateStatus c.id (Retirement.update s c)) result) y ∧
    y.Reaches s threshold others faults x after ∧
    deeds = before ++ .ask (.updateStatus c.id (Retirement.update s c)) result :: after ∧ (made ↔ result = .ok ())

/-- A pass listed some tasks at a moment and has moved some of these since, while others may have made requests. -/
structure Recovered (s : Settings) (threshold : Duration) (now : Timestamp) (others : Request → Prop) (faults : Prop)
    (x₀ x₁ x : Recovery) (deeds : List Deed) (ts moved : List Task) : Prop where
  order : Ascending ts
  listed : ∀ c, c ∈ ts ↔ x₁.store.Offers .processing c
  asked : deeds.filterMap Deed.asked? = (Reclaim.due threshold now x₀.queue ts).map (Retirement.errand s)
  made : deeds.filterMap Deed.made? = moved.map (Retirement.errand s)
  sub : moved.Sublist (Reclaim.due threshold now x₀.queue ts)
  tried : ∀ c ∈ Reclaim.due threshold now x₀.queue ts, x₀.Tries s threshold others faults x deeds c (c ∈ moved)
  /-- Whatever others do about the other tasks, a task that they leave alone is moved and not changed otherwise. -/
  spared : ∀ c ∈ Reclaim.due threshold now x₀.queue ts,
    (∀ r, others r → r.isWrite = true → r.id? ≠ some c.id) →
      (¬ faults → x₁.store.HasVersionAt c.id → c ∈ moved) ∧
        (c ∈ moved → Backend.UpdatedAt c.id (Retirement.update s c) x₁.store x.store ∧
          (x₁.store.HasRoomAt c.id → x.store.Offers (Retirement.target s c) (Retirement.retired s c)))
  kept : ∀ id, (∀ c ∈ moved, c.id ≠ id) → (∀ r, others r → r.isWrite = true → r.id? ≠ some id) →
    (x₁.store.Holds id ∨ ∀ r, ¬ others r) → x₁.store.AgreesAt id x.store
  queue : x.queue = x₀.queue
  tally : x.tally = Retirement.tallied s x₀.tally moved
  rise : x.tally.reclaimed + x.tally.deadLettered = x₀.tally.reclaimed + x₀.tally.deadLettered + moved.length

/-- A pass on which nobody has had any influence has moved some tasks and nothing else. -/
structure Cleared (s : Settings) (threshold : Duration) (now : Timestamp) (x₀ x : Recovery) (moved : List Task) :
    Prop where
  order : Ascending moved
  chosen : ∀ c, c ∈ moved ↔
    x₀.store.Offers .processing c ∧ x₀.queue.contains c.id = false ∧ Reclaim.Due threshold now c
  updated : ∀ c ∈ moved, Backend.UpdatedAt c.id (Retirement.update s c) x₀.store x.store
  /-- Only the version of such a task and its status are new. -/
  offered : ∀ c ∈ moved, x₀.store.HasRoomAt c.id → x.store.Offers (Retirement.target s c) (Retirement.retired s c)
  others : ∀ id, (∀ c ∈ moved, c.id ≠ id) → x₀.store.AgreesAt id x.store
  queue : x.queue = x₀.queue
  tally : x.tally = Retirement.tallied s x₀.tally moved
  rise : x.tally.reclaimed + x.tally.deadLettered = x₀.tally.reclaimed + x₀.tally.deadLettered + moved.length

/-- A task is known by its identifier among tasks in ascending order. -/
private theorem eq_of_id {cs : List Task} {d : Task} (order : Ascending cs) (hc : c ∈ cs) (hd : d ∈ cs)
    (hid : c.id = d.id) : c = d := by
  have hids : (cs.map Task.id).Nodup := List.pairwise_map.2 (order.imp Int.ne_of_lt)
  exact List.inj_on_of_nodup_map hids hc hd hid

namespace Books

variable (h : x₀.Books s x deeds a) (order : Ascending a.asked)

include h order

/-- The update of a task was made if and only if the task is among those that were retired. -/
theorem mem_made_iff (hc : c ∈ a.asked) : (c.id, u) ∈ deeds.filterMap Deed.made? ↔
    c ∈ a.made ∧ u = Retirement.update s c := by
  rw [h.made, List.mem_map]
  constructor
  · rintro ⟨d, hd, herrand⟩
    obtain ⟨hid, rfl⟩ := Prod.mk.inj herrand
    obtain rfl := eq_of_id order (h.sub.subset hd) hc hid
    exact ⟨hd, rfl⟩
  · rintro ⟨hmade, rfl⟩
    exact ⟨c, hmade, rfl⟩

/-- The pass asks for the update of a task in one deed at most. -/
theorem made_iff (hc : c ∈ a.asked) {result : Except StoreError Unit}
    (hdeed : .ask (.updateStatus c.id (Retirement.update s c)) result ∈ deeds) : c ∈ a.made ↔ result = .ok () := by
  have hapart : deeds.Pairwise Deed.Apart := by
    have hids : (deeds.filterMap Deed.asked?).Pairwise fun p p' => p.1 ≠ p'.1 := by
      rw [h.asked, List.pairwise_map]
      exact order.imp Int.ne_of_lt
    exact List.pairwise_filterMap.1 hids
  constructor
  · intro hmade
    obtain ⟨d, hd, hmade⟩ := List.mem_filterMap.1 ((h.mem_made_iff order hc).2 ⟨hmade, rfl⟩)
    obtain rfl := Deed.made?_eq_some_iff.1 hmade
    by_contra hne
    refine hapart.forall hdeed hd (fun heq => ?_) _ rfl _ rfl rfl
    cases heq
    exact hne rfl
  · rintro rfl
    exact ((h.mem_made_iff order hc).1 (List.mem_filterMap.2 ⟨_, hdeed, rfl⟩)).1

/-- A task that others leave alone is moved if nothing goes wrong, and updated once if it is moved. -/
theorem spared (hc : c ∈ a.asked) (fate : Fate faults c.id x₀.store x.store deeds)
    (offered : x₀.store.Offers .processing c) :
    (¬ faults → x₀.store.HasVersionAt c.id → c ∈ a.made) ∧
      (c ∈ a.made → Backend.UpdatedAt c.id (Retirement.update s c) x₀.store x.store ∧
        (x₀.store.HasRoomAt c.id → x.store.Offers (Retirement.target s c) (Retirement.retired s c))) := by
  cases fate with
  | left unmade same heard =>
    refine ⟨fun quiet versioned => ?_, fun hmade => ?_⟩
    · have hasked : (c.id, Retirement.update s c) ∈ deeds.filterMap Deed.asked? := by
        rw [h.asked]
        exact List.mem_map_of_mem hc
      exact absurd (offered.admits (Retirement.canMoveTo_target s c) versioned) (heard quiet _ hasked)
    · exact absurd ((h.mem_made_iff order hc).2 ⟨hmade, rfl⟩) (unmade _)
  | moved made admits updated =>
    obtain ⟨hmade, rfl⟩ := (h.mem_made_iff order hc).1 made
    exact ⟨fun _ _ => hmade, fun _ => ⟨updated, fun room =>
      offered.moved (Retirement.target_idle s c) admits room updated⟩⟩

omit order in
/-- A row that is not about a task that was retired stays as it is. -/
theorem kept (other : ∀ c ∈ a.made, c.id ≠ id) (fate : Fate faults id x₀.store x.store deeds) :
    x₀.store.AgreesAt id x.store := by
  cases fate with
  | left unmade same heard => exact same
  | moved made admits updated =>
    rw [h.made] at made
    obtain ⟨c, hc, herrand⟩ := List.mem_map.1 made
    exact absurd (congrArg Prod.fst herrand) (other c hc)

end Books

/-- A pass that has listed some tasks and is over is past all of them. -/
theorem Reaches.books_of_done (h : x₀.Reaches s threshold others faults x deeds) (listed : x₀.pass = .dating ts)
    {result : Except StoreError Nat} (ended : x.pass = .done result) :
    ∃ now more moved, deeds = .readWallClock now :: more ∧ result = .ok moved.length ∧
      x₀.Books s x deeds ⟨Reclaim.due threshold now x₀.queue ts, moved, moved⟩ := by
  cases h.sound listed with
  | dating done stage books =>
    rw [ended] at stage
    cases stage
  | dated done stands books =>
    rw [ended] at stands
    cases stands with
    | done => exact ⟨_, _, _, done, rfl, books⟩

/-- For each task for which a pass has asked there is a moment at which it has asked. -/
theorem Reaches.tries (h : x₀.Reaches s threshold others faults x deeds) (hb : x₀.store.Ordered)
    (books : z.Books s x more a) (order : Ascending a.asked) (later : more ⊆ deeds) (hc : c ∈ a.asked) :
    x₀.Tries s threshold others faults x deeds c (c ∈ a.made) := by
  have hmem : (c.id, Retirement.update s c) ∈ more.filterMap Deed.asked? := by
    rw [books.asked]
    exact List.mem_map_of_mem hc
  obtain ⟨deed, hdeed, hasks⟩ := List.mem_filterMap.1 hmem
  obtain ⟨result, rfl⟩ := Deed.asked?_eq_some_iff.1 hasks
  obtain ⟨x₁, y, before, after, hbefore, hmove, hafter, hdeeds⟩ := h.exists_move (later hdeed)
  exact ⟨x₁, y, before, after, result, hbefore, hmove.deals (hbefore.ordered hb), hafter, hdeeds,
    books.made_iff order hc hdeed⟩

namespace Listed

variable {x₁ : Recovery} (h : Listed s threshold others faults x₀ x₁ x ts more) (hb : x₀.store.Ordered)

include h hb

theorem order : Ascending ts := by
  obtain ⟨wall, answer⟩ := h.answer
  exact ((h.before.ordered hb).listed answer).1

theorem mem_iff : c ∈ ts ↔ x₁.store.Offers .processing c := by
  obtain ⟨wall, answer⟩ := h.answer
  exact (h.before.ordered hb).mem_listed_iff answer

theorem fate (spares : ∀ r, others r → r.isWrite = true → r.id? ≠ some id)
    (held : x₁.store.Holds id ∨ ∀ r, ¬ others r) : Fate faults id x₁.store x.store more :=
  h.after.fate rfl (h.before.ordered hb) (h.order hb) spares held

/-- A pass that is over has come to this. -/
theorem recovered (reaches : x₀.Reaches s threshold others faults x deeds)
    (done : deeds = .ask (.listByStatus .processing) (.ok ts) :: more) {result : Except StoreError Nat}
    (ended : x.pass = .done result) :
    ∃ now later moved, more = .readWallClock now :: later ∧ result = .ok moved.length ∧
      Recovered s threshold now others faults x₀ x₁ x deeds ts moved := by
  obtain ⟨now, later, moved, hmore, hresult, hbooks⟩ := h.after.books_of_done rfl ended
  have hqueue : ({ x₁ with pass := .dating ts } : Recovery).queue = x₀.queue := h.queue
  rw [hqueue] at hbooks
  have hsublist := Reclaim.due_sublist threshold now x₀.queue ts
  have horder : Ascending (Reclaim.due threshold now x₀.queue ts) := (h.order hb).sublist hsublist
  have hasked : deeds.filterMap Deed.asked? = more.filterMap Deed.asked? := by rw [done]; rfl
  have hmade : deeds.filterMap Deed.made? = more.filterMap Deed.made? := by rw [done]; rfl
  have htally : x.tally = Retirement.tallied s x₀.tally moved := h.tally ▸ hbooks.tally
  have hoffered {c : Task} (hc : c ∈ Reclaim.due threshold now x₀.queue ts) : x₁.store.Offers .processing c :=
    (h.mem_iff hb).1 (hsublist.subset hc)
  refine ⟨now, later, moved, hmore, hresult, ?_⟩
  exact {
    order := h.order hb
    listed := fun c => h.mem_iff hb
    asked := hasked.trans hbooks.asked
    made := hmade.trans hbooks.made
    sub := hbooks.sub
    tried := fun c hc => reaches.tries hb hbooks horder (done ▸ List.subset_cons_self _ _) hc
    spared := fun c hc spares =>
      hbooks.spared horder hc (h.fate hb spares (.inl (hoffered hc).holds)) (hoffered hc)
    kept := fun id hother spares held => hbooks.kept hother (h.fate hb spares held)
    queue := hbooks.queue
    tally := htally
    rise := by rw [htally, Retirement.rise_tallied] }

end Listed

/-- If nobody else changes the store and no call fails, a pass moves exactly the tasks that are overdue. -/
theorem Recovered.cleared {x₁ : Recovery} {moved : List Task}
    (h : Recovered s threshold now others faults x₀ x₁ x deeds ts moved)
    (before : x₀.Reaches s threshold others faults x₁ []) (nobody : ∀ r, ¬ others r)
    (calm : ∀ deed ∈ deeds, deed.isFailure = false) : Cleared s threshold now x₀ x moved := by
  obtain rfl := before.eq_of_nil nobody rfl
  have hall : moved = Reclaim.due threshold now x₁.queue ts := by
    have hsame : deeds.filterMap Deed.made? = deeds.filterMap Deed.asked? :=
      List.filterMap_congr fun deed hdeed => Deed.made?_of_not_isFailure (calm deed hdeed)
    rw [h.made, h.asked] at hsame
    refine h.sub.eq_of_length ?_
    simpa using congrArg List.length hsame
  have hnone (id : Int) (r : Request) (hr : others r) : r.isWrite = true → r.id? ≠ some id := absurd hr (nobody r)
  have hmoved {c : Task} (hc : c ∈ moved) := (h.spared c (hall ▸ hc) (hnone c.id)).2 hc
  exact {
    order := h.order.sublist (h.sub.trans (Reclaim.due_sublist _ _ _ _))
    chosen := fun c => by rw [hall, Reclaim.mem_due_iff, h.listed]
    updated := fun c hc => (hmoved hc).1
    offered := fun c hc => (hmoved hc).2
    others := fun id hother => h.kept id hother (hnone id) (.inr nobody)
    queue := h.queue
    tally := h.tally
    rise := h.rise }

/-! ### A pass comes to its end -/

/-- The pass can be brought to its end without anybody else, and without a failing call. -/
def CanEnd (s : Settings) (threshold : Duration) (x : Recovery) : Prop :=
  ∃ y more result, x.Reaches s threshold (fun _ => False) False y more ∧ (∀ deed ∈ more, deed.isFailure = false) ∧
    y.pass = .done result

theorem CanEnd.of_does (does : (x.pass.next s threshold).Does x.pass deed pass') (met : deed.Met x.store x.queue b q)
    (calm : deed.isFailure = false) (h : CanEnd s threshold ⟨b, q, deed.onTally x.tally, pass'⟩) :
    x.CanEnd s threshold := by
  obtain ⟨y, more, result, hreach, hmore, hresult⟩ := h
  have hfirst : x.Reaches s threshold (fun _ => False) False ⟨b, q, deed.onTally x.tally, pass'⟩ [deed] :=
    Reaches.start.step (.own does met fun _ => met.heard calm)
  exact ⟨y, deed :: more, result, hfirst.trans hreach, List.forall_mem_cons.2 ⟨calm, hmore⟩, hresult⟩

theorem Sound.isUnderway (h : Sound s threshold ts x₀ x deeds) (goesOn : ∀ result, x.pass ≠ .done result) :
    x.pass.isUnderway = true := by
  cases h with
  | dating done stage books =>
    rw [stage]
    rfl
  | dated done stands books =>
    generalize x.pass = pass at stands goesOn
    cases stands with
    | telling cut counted => rcases counted with rfl | ⟨read, rfl⟩ <;> rfl
    | done => exact absurd rfl (goesOn _)
    | _ => rfl

section

variable (nobody : ∀ r, ¬ others r) (hb : x₀.store.Ordered)

include nobody hb

/-- A pass that has listed its tasks can be brought to its end from wherever it stands. -/
theorem Reaches.canEnd_of_listed (h : x₀.Reaches s threshold others faults x deeds) (listed : x₀.pass = .dating ts)
    (order : Ascending ts) (admits : ∀ c ∈ ts, x₀.store.Admits c.id (Retirement.update s c)) :
    x.CanEnd s threshold := by
  generalize hleft : x.pass.left = n
  induction n using Nat.strongRecOn generalizing x deeds with
  | ind n ih =>
    by_cases hover : ∃ result, x.pass = .done result
    · obtain ⟨result, hresult⟩ := hover
      exact ⟨x, [], result, .start, List.forall_mem_nil _, hresult⟩
    · rw [not_exists] at hover
      have hsound := h.sound listed
      have hanswers (now : Timestamp) (task : Task) (rest : List Task) (count : Nat)
          (stage : x.pass = .retiring now task rest count .updating) :
          (x.store.perform default (.updateStatus task.id (Retirement.update s task))).1 = .ok () := by
        obtain ⟨hmem, hnew⟩ := hsound.new order stage
        have hfate : Fate faults task.id x₀.store x.store deeds :=
          h.fate listed hb order (fun r hr => absurd hr (nobody r)) (.inr nobody)
        -- the pass has not touched the row before
        cases hfate with
        | left unmade same heard =>
          exact ((h.ordered hb).updateStatus_ok_iff default).2 ((admits task hmem).of_agreesAt same)
        | moved made _ updated => exact absurd (Deed.mem_asked_of_mem_made made) (hnew _)
      obtain ⟨deed, pass', b', hdoes, hmet, hcalm, -, hless⟩ :=
        Reclaim.advance (hsound.isUnderway hover) x.store x.queue threshold hanswers
      have hstep := h.step (.own hdoes hmet fun _ => hmet.heard hcalm)
      exact .of_does hdoes hmet hcalm (ih _ (hleft ▸ hless) hstep rfl)

variable (lists : ∃ wall ts, (x₀.store.perform wall (.listByStatus .processing)).1 = .ok ts)
  (versioned : ∀ c, x₀.store.Offers .processing c → x₀.store.HasVersionAt c.id)

include lists versioned

theorem Reaches.canEnd (h : x₀.Reaches s threshold others faults x deeds) (starts : x₀.pass = .listing) :
    x.CanEnd s threshold := by
  have hadmits {wall : Timestamp} {ts : List Task}
      (answer : (x₀.store.perform wall (.listByStatus .processing)).1 = .ok ts) :
      ∀ c ∈ ts, x₀.store.Admits c.id (Retirement.update s c) := by
    intro c hc
    have hoffered := (hb.mem_listed_iff answer).1 hc
    exact hoffered.admits (Retirement.canMoveTo_target s c) (versioned c hoffered)
  cases h.outset starts with
  | waiting done stage =>
    obtain rfl := h.eq_of_nil nobody done
    obtain ⟨wall, ts, answer⟩ := lists
    obtain ⟨store, queue, tally, pass⟩ := x
    obtain rfl : pass = .listing := stage
    have hmet : (Deed.ask (.listByStatus .processing) (.ok ts)).Met store queue store queue := by
      have hafter := congrArg Prod.snd (store.perform_of_not_isWrite (r := .listByStatus .processing) rfl wall wall)
      have hmet := Deed.Met.answered (q := queue) wall answer
      rwa [hafter] at hmet
    have hordered : (Recovery.mk store queue tally (.dating ts)).store.Ordered := hb
    have hstart : Reaches s threshold others faults ⟨store, queue, tally, .dating ts⟩ _ [] := .start
    exact .of_does (.ask _) hmet rfl (hstart.canEnd_of_listed nobody hordered rfl (hb.listed answer).1 (hadmits answer))
  | unlisted done stage => exact ⟨x, [], _, .start, List.forall_mem_nil _, stage⟩
  | @listed x₁ ts more done hlisted =>
    obtain rfl := hlisted.before.eq_of_nil nobody rfl
    obtain ⟨wall, answer⟩ := hlisted.answer
    have hordered : ({ x₁ with pass := .dating ts } : Recovery).store.Ordered := hb
    exact hlisted.after.canEnd_of_listed nobody hordered rfl (hlisted.order hb) (hadmits answer)

/-- If the store answers every call, no call of a pass on which nobody else has any influence fails. -/
theorem Reaches.calm (h : x₀.Reaches s threshold others faults x deeds) (starts : x₀.pass = .listing)
    (quiet : ¬ faults) : ∀ deed ∈ deeds, deed.isFailure = false := by
  cases h.outset starts with
  | waiting done stage =>
    rw [done]
    exact List.forall_mem_nil _
  | @unlisted e done stage =>
    -- the store would have answered the listing otherwise
    obtain ⟨x₁, y, before, after, hbefore, hmove, -, hdeeds⟩ := h.exists_move (done ▸ List.mem_cons_self)
    obtain rfl : before = [] := by
      rw [done] at hdeeds
      cases before with
      | nil => rfl
      | cons d before => simp at hdeeds
    obtain rfl := hbefore.eq_of_nil nobody rfl
    obtain ⟨wall, ts, answer⟩ := lists
    cases hmove with
    | own does met heard =>
      obtain ⟨wall', answer'⟩ := heard quiet
      have hsame := congrArg Prod.fst (x₁.store.perform_of_not_isWrite (r := .listByStatus .processing) rfl wall' wall)
      rw [hsame, answer] at answer'
      cases answer'
  | @listed x₁ ts more done hlisted =>
    obtain rfl := hlisted.before.eq_of_nil nobody rfl
    have hsound := hlisted.after.sound rfl
    rw [done]
    refine List.forall_mem_cons.2 ⟨rfl, fun deed hdeed => ?_⟩
    by_contra hfails
    rw [Bool.not_eq_false] at hfails
    obtain ⟨x₂, y, before, after, hbefore, hmove, -, -⟩ := hlisted.after.exists_move hdeed
    obtain ⟨⟨id, u⟩, hasked⟩ : ∃ p, deed.asked? = some p := by
      cases hmove with
      | own does met heard =>
        exact (Reclaim.Goes.of_does does met).asked_of_isFailure (hbefore.sound rfl).ne_listing hfails
    -- the update was made, so it did not fail
    cases hsound with
    | dating done' =>
      rw [done'] at hdeed
      cases hdeed
    | dated done' stands books =>
      have hmem : (id, u) ∈ more.filterMap Deed.asked? := List.mem_filterMap.2 ⟨deed, hdeed, hasked⟩
      rw [books.asked] at hmem
      obtain ⟨c, hc, herrand⟩ := List.mem_map.1 hmem
      obtain ⟨rfl, rfl⟩ := Prod.mk.inj herrand
      obtain ⟨result, rfl⟩ := Deed.asked?_eq_some_iff.1 hasked
      have hoffered := (hlisted.mem_iff hb).1 (stands.asked_sublist.subset hc)
      have horder := (hlisted.order hb).sublist stands.asked_sublist
      have hfate : Fate faults c.id x₁.store x.store more :=
        hlisted.fate hb (fun r hr => absurd hr (nobody r)) (.inr nobody)
      have hmade := (books.spared horder hc hfate hoffered).1 quiet (versioned c hoffered)
      rw [(books.made_iff horder hc hdeed).1 hmade] at hfails
      cases hfails

end

/-- **Main theorem.**  Others may make requests of the store, and the token of the pass does not fire.  The pass leaves
the queue alone, and the store as well but for the updates that it asks for; each of these is made or leaves everything
as it is, and a task is left alone that is gone or has another version than was listed.  A pass that has not failed to
list the tasks in processing ends after it has asked once for the update of each of them that the queue does not track
and that is overdue; it has counted those that were moved, and returns their number.  If nobody else changes the store
and no call fails, exactly these tasks have been moved, and nothing else has changed; if the store answers every call,
none fails then, and the pass can be brought to its end. -/
theorem Reaches.recovers (h : x₀.Reaches s threshold others faults x deeds) (hb : x₀.store.Ordered)
    (starts : x₀.pass = .listing) :
    (∀ deed y, x.Moves s threshold others faults (some deed) y → x.Deals faults deed y) ∧
    (∀ result, x.pass = .done result →
      (∃ e, deeds = [.ask (.listByStatus .processing) (.error e)] ∧ result = .error e ∧ x.queue = x₀.queue ∧
        x.tally = x₀.tally) ∨
      ∃ x₁ ts now more moved, x₀.Reaches s threshold others faults x₁ [] ∧
        deeds = .ask (.listByStatus .processing) (.ok ts) :: .readWallClock now :: more ∧ result = .ok moved.length ∧
        Recovered s threshold now others faults x₀ x₁ x deeds ts moved ∧
        ((∀ r, ¬ others r) → (∀ deed ∈ deeds, deed.isFailure = false) → Cleared s threshold now x₀ x moved)) ∧
    ((∀ r, ¬ others r) → (∃ wall ts, (x₀.store.perform wall (.listByStatus .processing)).1 = .ok ts) →
      (∀ c, x₀.store.Offers .processing c → x₀.store.HasVersionAt c.id) →
      (¬ faults → ∀ deed ∈ deeds, deed.isFailure = false) ∧ x.CanEnd s threshold) := by
  refine ⟨fun deed y move => move.deals (h.ordered hb), fun result ended => ?_, fun nobody lists versioned => ?_⟩
  · cases h.outset starts with
    | waiting done stage =>
      rw [ended] at stage
      cases stage
    | unlisted done stage queue tally =>
      rw [ended] at stage
      exact .inl ⟨_, done, Reclaim.done.inj stage, queue, tally⟩
    | @listed x₁ ts more done hlisted =>
      obtain ⟨now, later, moved, rfl, hresult, hrecovered⟩ := hlisted.recovered hb h done ended
      have hcleared := hrecovered.cleared hlisted.before
      exact .inr ⟨x₁, ts, now, later, moved, hlisted.before, done, hresult, hrecovered, hcleared⟩
  · exact ⟨h.calm nobody hb lists versioned starts, h.canEnd nobody hb lists versioned starts⟩

/-- Of four tasks in processing one has been worked on for too long, one as well, with its attempts used up, one is
tracked, and one is young: the pass moves the first to waiting and the second to failure. -/
theorem recovers_of_fourTasks : ∃ (x₀ x : Recovery) (deeds : List Deed) (givenUp usedUp young : Task),
    x₀.store.Ordered ∧ x₀.pass = .listing ∧
      x₀.Reaches .standard (.ofSecs 300) (fun _ => False) False x deeds ∧ x.pass = .done (.ok 2) ∧
      x.store.Offers .pending { givenUp with status := .pending, version := givenUp.version + 1 } ∧
      x.store.Offers .failed { usedUp with status := .failed, version := usedUp.version + 1 } ∧
      x₀.store.AgreesAt young.id x.store := by
  let now : Timestamp := ⟨1000000, 0, by decide, by decide, by decide⟩
  let before : Timestamp := ⟨999400, 0, by decide, by decide, by decide⟩
  let givenUp : Task := { (default : Task) with id := 1, status := .processing, startedAt := some before }
  let usedUp : Task := { (default : Task) with id := 2, status := .processing, attempts := 3 }
  let tracked : Task := { (default : Task) with id := 3, status := .processing }
  let young : Task := { (default : Task) with id := 4, status := .processing, startedAt := some now }
  let b : Backend := .memory ⟨4, [givenUp, usedUp, tracked, young]⟩
  let q : Queue := (Queue.empty 100).track default tracked
  let x₀ : Recovery := ⟨b, q, .empty, .listing⟩
  -- the tasks are listed, and the clock is read
  let listing : Deed := .ask (.listByStatus .processing) (.ok [givenUp, usedUp, tracked, young])
  have hdated : ∃ more, x₀.Reaches .standard (.ofSecs 300) (fun _ => False) False
      ⟨b, q, .empty, .guarding now givenUp [usedUp, tracked, young] 0⟩ (listing :: .readWallClock now :: more) := by
    have hlists : x₀.Moves .standard (.ofSecs 300) (fun _ => False) False (some listing)
        ⟨b, q, .empty, .dating [givenUp, usedUp, tracked, young]⟩ :=
      .own (.ask _) (.answered default rfl) fun _ => ⟨default, rfl⟩
    exact ⟨[], (Reaches.start.step hlists).step (.own (.readWallClock now) (.acted rfl trivial) fun _ => trivial)⟩
  have own {x y : Recovery} (deed : Deed)
      (h : ∃ more, x₀.Reaches .standard (.ofSecs 300) (fun _ => False) False x (listing :: .readWallClock now :: more))
      (m : x.Moves .standard (.ofSecs 300) (fun _ => False) False (some deed) y) :
      ∃ more, x₀.Reaches .standard (.ofSecs 300) (fun _ => False) False y
        (listing :: .readWallClock now :: more) := by
    obtain ⟨more, hreach⟩ := h
    exact ⟨more ++ [deed], hreach.step m⟩
  -- the first two tasks are retired
  have hsaw := own (.see false) hdated (.own (.see false) (.acted rfl rfl) fun _ => trivial)
  have hlooked := own (.look 1 false) hsaw (.own (.look false) (.acted rfl rfl) fun _ => trivial)
  have hmoved := own (.ask (.updateStatus 1 (givenUp.moving .pending)) (.ok ())) hlooked
    (.own (.ask _) (.answered default rfl) fun _ => ⟨default, rfl⟩)
  have hcounted := own (.record .reclaimed) hmoved (.own .record (.acted rfl trivial) fun _ => trivial)
  have hread := own (.readWallClock now) hcounted (.own (.readWallClock now) (.acted rfl trivial) fun _ => trivial)
  have htold := own (.notify givenUp.userId (.ofTask givenUp .pending now)) hread
    (.own .notify (.acted rfl trivial) fun _ => trivial)
  have hsaw := own (.see false) htold (.own (.see false) (.acted rfl rfl) fun _ => trivial)
  have hlooked := own (.look 2 false) hsaw (.own (.look false) (.acted rfl rfl) fun _ => trivial)
  have hmoved := own (.ask (.updateStatus 2 (usedUp.moving .failed)) (.ok ())) hlooked
    (.own (.ask _) (.answered default rfl) fun _ => ⟨default, rfl⟩)
  have hcounted := own (.record .deadLettered) hmoved (.own .record (.acted rfl trivial) fun _ => trivial)
  have hread := own (.readWallClock now) hcounted (.own (.readWallClock now) (.acted rfl trivial) fun _ => trivial)
  have htold := own (.notify usedUp.userId (.ofTask usedUp .failed now)) hread
    (.own .notify (.acted rfl trivial) fun _ => trivial)
  -- the other two are passed over
  have hsaw := own (.see false) htold (.own (.see false) (.acted rfl rfl) fun _ => trivial)
  have hlooked := own (.look 3 true) hsaw (.own (.look true) (.acted rfl rfl) fun _ => trivial)
  have hsaw := own (.see false) hlooked (.own (.see false) (.acted rfl rfl) fun _ => trivial)
  obtain ⟨deeds, hover⟩ := own (.look 4 false) hsaw (.own (.look false) (.acted rfl rfl) fun _ => trivial)
  have hordered : x₀.store.Ordered := ⟨by decide, by decide⟩
  obtain ⟨-, hends, hcalm⟩ := hover.recovers hordered rfl
  have calm := (hcalm (fun _ => id) ⟨default, _, rfl⟩ fun _ _ => trivial).1 id
  rcases hends (.ok 2) rfl with ⟨e, -, hresult, -⟩ | ⟨x₁, ts, now', more, moved, -, hdeeds, -, -, hcleared⟩
  · cases hresult
  obtain ⟨-, hrest⟩ := List.cons.inj hdeeds
  obtain rfl : now' = now := (Deed.readWallClock.inj (List.cons.inj hrest).1).symm
  have cleared := hcleared (fun _ => id) calm
  have hgivenUp : givenUp ∈ moved :=
    (cleared.chosen givenUp).2 ⟨⟨rfl, rfl⟩, rfl, .old rfl (by decide) (by decide)⟩
  have husedUp : usedUp ∈ moved := (cleared.chosen usedUp).2 ⟨⟨rfl, rfl⟩, rfl, .unstarted rfl⟩
  have hyoung : young ∉ moved := by
    intro hmem
    have hstale := Reclaim.isStale_iff.2 ((cleared.chosen young).1 hmem).2.2
    cases hstale
  refine ⟨x₀, _, _, givenUp, usedUp, young, hordered, rfl, hover, rfl, ?_, ?_, ?_⟩
  · exact cleared.offered givenUp hgivenUp trivial
  · exact cleared.offered usedUp husedUp trivial
  · refine cleared.others young.id fun c hc hid => ?_
    have hfind := ((cleared.chosen c).1 hc).1.1
    rw [hid] at hfind
    have hsame : some young = some c := hfind
    exact hyoung (Option.some.inj hsame ▸ hc)

end Recovery

end Backlog.Dispatch

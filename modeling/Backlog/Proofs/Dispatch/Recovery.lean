import Backlog.Proofs.Dispatch.Overdue

/-!
# A pass of the reclaiming among others

A pass works on its store and its queue while its token does not fire.  Others may make requests of the store meanwhile,
and a call of the store may fail for reasons of its own; the queue is left to the pass.

Key facts: the pass changes the store by the updates that it asks for only, and each of them is made or refused as the
row says (`Recovery.Moves.deals`).  Once the tasks are listed, where the pass stands and what it has asked, moved and
counted go on together (`Recovery.Books.step`, `Recovery.Reaches.sound`).
-/

namespace Backlog.Dispatch

open Store

/-- A pass over the tasks in processing, and the store, the queue and the counters on which it works. -/
structure Recovery where
  store : Backend
  queue : Queue
  tally : Tally
  pass : Reclaim

variable {s : Settings} {threshold : Duration} {now : Timestamp} {others : Request → Prop} {faults : Prop}
  {b b' : Backend} {q q' : Queue} {deed : Deed} {deeds more : List Deed} {id : Int} {u : StatusUpdate}
  {ts : List Task} {pass' : Reclaim}

/-! ### Updates that are made or refused -/

/-- What comes of an update with such a result, where calls may fail by themselves if there are faults. -/
structure Settles (faults : Prop) (id : Int) (u : StatusUpdate) (b b' : Backend) (result : Except StoreError Unit) :
    Prop where
  made : result = .ok () → b.Admits id u ∧ Backend.UpdatedAt id u b b'
  refused : ∀ e, result = .error e → b' = b
  others : ∀ other, other ≠ id → b.AgreesAt other b'
  heard : ¬ faults → b.Admits id u → result = .ok ()
  /-- What is gone or has another version than was expected is left alone. -/
  gone : ∀ version, u.expectedVersion = some version → b.LacksVersion id version → result ≠ .ok ()

namespace Deed

/-- What the deed has learnt is the answer of the store, if the deed is a call of it. -/
def Heard (b : Backend) : Deed → Prop
  | ask r result => ∃ wall, (b.perform wall r).1 = .answered result
  | _ => True

theorem Met.heard (h : deed.Met b q b' q') (calm : deed.isFailure = false) : deed.Heard b := by
  cases h with
  | answered wall answer => exact ⟨wall, answer⟩
  | @failed r e => cases calm
  | acted noAsk fits =>
    cases deed with
    | ask r result => cases noAsk
    | _ => trivial

theorem Met.settles {result : Except StoreError Unit} (h : Met b q (.ask (.updateStatus id u) result) b' q')
    (hb : b.Ordered) (heard : ¬ faults → (Deed.ask (.updateStatus id u) result).Heard b) :
    Settles faults id u b b' result := by
  have hmade : result = .ok () → b.Admits id u ∧ Backend.UpdatedAt id u b b' := by
    rintro rfl
    obtain ⟨wall, _, -, answer, rfl, -⟩ := h.answer rfl
    have hadmits := (hb.updateStatus_ok_iff wall).1 answer
    exact ⟨hadmits, hadmits.updatedAt wall⟩
  refine ⟨hmade, ?_, fun other hne => ?_, fun quiet admits => ?_, fun version expects gone hok => ?_⟩
  · rintro e rfl
    exact h.of_refused
  · cases h with
    | answered wall answer => exact b.agreesAt_updateStatus wall u hne
    | failed e => exact .refl other b
    | acted noAsk fits => cases noAsk
  · obtain ⟨wall, answer⟩ := heard quiet
    rw [(hb.updateStatus_ok_iff wall).2 admits] at answer
    exact (Outcome.answered.inj answer).symm
  · exact gone.not_admits expects (hmade hok).1

end Deed

namespace Recovery

/-! ### Runs -/

/-- What may happen next, with the deed by which the pass has done it: the pass does something, and its token does not
fire; or somebody makes a request of the store. -/
inductive Moves (s : Settings) (threshold : Duration) (others : Request → Prop) (faults : Prop) (x : Recovery) :
    Option Deed → Recovery → Prop where
  | own {deed : Deed} {pass : Reclaim} {b : Backend} {q : Queue}
      (does : (x.pass.next s threshold).Does x.pass deed pass) (met : deed.Met x.store x.queue b q)
      (heard : ¬ faults → deed.Heard x.store) :
    Moves s threshold others faults x (some deed) ⟨b, q, deed.onTally x.tally, pass⟩
  | requested {r : Request} (wall : Timestamp) (may : others r) :
    Moves s threshold others faults x none { x with store := (x.store.perform wall r).2 }

/-- What can come of a pass, with its deeds on the way there. -/
inductive Reaches (s : Settings) (threshold : Duration) (others : Request → Prop) (faults : Prop) (x₀ : Recovery) :
    Recovery → List Deed → Prop where
  | start : Reaches s threshold others faults x₀ x₀ []
  | step {x y : Recovery} {deeds : List Deed} {o : Option Deed} (h : Reaches s threshold others faults x₀ x deeds)
      (m : x.Moves s threshold others faults o y) : Reaches s threshold others faults x₀ y (deeds ++ o.toList)

variable {x₀ x y z : Recovery} {a : Reclaim.Account}

theorem Reaches.trans (h : x.Reaches s threshold others faults y deeds)
    (h' : y.Reaches s threshold others faults z more) : x.Reaches s threshold others faults z (deeds ++ more) := by
  induction h' with
  | start => rwa [List.append_nil]
  | step _ m ih =>
    rw [← List.append_assoc]
    exact ih.step m

theorem Reaches.ordered (h : x₀.Reaches s threshold others faults x deeds) (hb : x₀.store.Ordered) :
    x.store.Ordered := by
  induction h with
  | start => exact hb
  | step _ m ih =>
    cases m with
    | own does met heard => exact met.ordered ih
    | requested wall may => exact ih.perform wall _

/-- A deed of a run was done at some moment on the way. -/
theorem Reaches.exists_move (h : x₀.Reaches s threshold others faults x deeds) (hdeed : deed ∈ deeds) :
    ∃ x₁ y before after, x₀.Reaches s threshold others faults x₁ before ∧
      x₁.Moves s threshold others faults (some deed) y ∧ y.Reaches s threshold others faults x after ∧
      deeds = before ++ deed :: after := by
  induction h with
  | start => cases hdeed
  | @step x y deeds o h m ih =>
    rcases List.mem_append.1 hdeed with hbefore | hlast
    · obtain ⟨x₁, z, before, after, hreach, hmove, hfrom, rfl⟩ := ih hbefore
      refine ⟨x₁, z, before, after ++ o.toList, hreach, hmove, hfrom.step m, ?_⟩
      rw [List.append_assoc, List.cons_append]
    · obtain rfl : o = some deed := by simpa using hlast
      exact ⟨x, y, deeds, [], h, m, .start, rfl⟩

/-- Where nobody makes any requests nothing happens before the first deed of the pass. -/
theorem Reaches.eq_of_nil (h : x₀.Reaches s threshold others faults x deeds) (nobody : ∀ r, ¬ others r)
    (idle : deeds = []) : x = x₀ := by
  induction h with
  | start => rfl
  | step _ m ih =>
    cases m with
    | own does met heard => simp at idle
    | requested wall may => exact absurd may (nobody _)

/-- What a deed of the pass does to the store and the queue. -/
structure Deals (faults : Prop) (deed : Deed) (x y : Recovery) : Prop where
  queue : y.queue = x.queue
  aside : deed.asked? = none → y.store = x.store
  settles : ∀ id u result, deed = .ask (.updateStatus id u) result → Settles faults id u x.store y.store result

theorem Moves.deals (m : x.Moves s threshold others faults (some deed) y) (hb : x.store.Ordered) :
    x.Deals faults deed y := by
  cases m with
  | own does met heard =>
    refine ⟨met.queue_of_isAside (Reclaim.isAside_of_does does), (Reclaim.Goes.of_does does met).store_eq, ?_⟩
    rintro id u result rfl
    exact met.settles hb heard

/-! ### The listing -/

/-- A pass has listed some tasks at a moment and has gone on from there. -/
structure Listed (s : Settings) (threshold : Duration) (others : Request → Prop) (faults : Prop) (x₀ x₁ x : Recovery)
    (ts : List Task) (more : List Deed) : Prop where
  before : x₀.Reaches s threshold others faults x₁ []
  queue : x₁.queue = x₀.queue
  tally : x₁.tally = x₀.tally
  answer : ∃ wall, (x₁.store.perform wall (.listByStatus .processing)).1 = .ok ts
  after : Reaches s threshold others faults { x₁ with pass := .dating ts } x more

/-- How a pass has begun: it waits to list the tasks, the listing has failed, or it has listed them. -/
inductive Outset (s : Settings) (threshold : Duration) (others : Request → Prop) (faults : Prop) (x₀ x : Recovery)
    (deeds : List Deed) : Prop where
  | waiting (done : deeds = []) (stage : x.pass = .listing) (queue : x.queue = x₀.queue) (tally : x.tally = x₀.tally)
  | unlisted {e : StoreError} (done : deeds = [.ask (.listByStatus .processing) (.error e)])
      (stage : x.pass = .done (.error e)) (queue : x.queue = x₀.queue) (tally : x.tally = x₀.tally)
  | listed {x₁ : Recovery} {ts : List Task} {more : List Deed}
      (done : deeds = .ask (.listByStatus .processing) (.ok ts) :: more)
      (listed : Listed s threshold others faults x₀ x₁ x ts more)

theorem Reaches.outset (h : x₀.Reaches s threshold others faults x deeds) (starts : x₀.pass = .listing) :
    x₀.Outset s threshold others faults x deeds := by
  induction h with
  | start => exact .waiting rfl starts rfl rfl
  | @step x y deeds o h m ih =>
    cases ih with
    | waiting done stage queue tally =>
      subst done
      cases m with
      | @own deed pass b q does met heard =>
        rw [stage] at does
        cases does with
        | ask result =>
          obtain ⟨rfl, rfl⟩ := met.of_listing
          cases result with
          | error e => exact .unlisted rfl rfl queue tally
          | ok ts =>
            obtain ⟨-, -, wall, ts', hts, answer⟩ := met.listed rfl
            cases hts
            exact .listed rfl ⟨h, queue, tally, ⟨wall, answer⟩, .start⟩
        | drop hy =>
          obtain ⟨fits, -⟩ := met.deeds rfl
          cases fits
      | requested wall may => exact .waiting rfl stage queue tally
    | unlisted done stage queue tally =>
      cases m with
      | own does met heard =>
        rw [stage] at does
        cases does
      | requested wall may =>
        rw [Option.toList_none, List.append_nil]
        exact .unlisted done stage queue tally
    | @listed x₁ ts more done hlisted =>
      have hdone : deeds ++ o.toList = .ask (.listByStatus .processing) (.ok ts) :: (more ++ o.toList) := by
        rw [done, List.cons_append]
      exact .listed hdone { hlisted with after := hlisted.after.step m }

/-! ### What has come of a pass -/

/-- Since the pass listed the tasks this has come of it, but for the store. -/
structure Books (s : Settings) (x₀ x : Recovery) (deeds : List Deed) (a : Reclaim.Account) : Prop where
  queue : x.queue = x₀.queue
  asked : deeds.filterMap Deed.asked? = a.asked.map (Retirement.errand s)
  made : deeds.filterMap Deed.made? = a.made.map (Retirement.errand s)
  sub : a.made.Sublist a.asked
  tally : x.tally = Retirement.tallied s x₀.tally a.counted

namespace Books

theorem requested (h : x₀.Books s x deeds a) (b : Backend) : x₀.Books s { x with store := b } deeds a :=
  ⟨h.queue, h.asked, h.made, h.sub, h.tally⟩

/-- A deed that asks for no update may count something. -/
theorem aside (h : x₀.Books s x deeds a) (b : Backend) (pass : Reclaim) (unasked : deed.asked? = none)
    (uncounted : deed.onTally x.tally = x.tally) :
    x₀.Books s ⟨b, x.queue, deed.onTally x.tally, pass⟩ (deeds ++ [deed]) a := by
  refine ⟨h.queue, ?_, ?_, h.sub, uncounted.trans h.tally⟩
  · simp [h.asked, unasked]
  · simp [h.made, Deed.made?_of_unasked unasked]

theorem updated (h : x₀.Books s x deeds a) (b : Backend) (pass : Reclaim) (task : Task) :
    x₀.Books s ⟨b, x.queue, x.tally, pass⟩
      (deeds ++ [.ask (.updateStatus task.id (Retirement.update s task)) (.ok ())])
      ⟨a.asked ++ [task], a.made ++ [task], a.counted⟩ := by
  refine ⟨h.queue, ?_, ?_, h.sub.append_right [task], h.tally⟩
  · rw [List.filterMap_append, h.asked, List.map_append]
    rfl
  · rw [List.filterMap_append, h.made, List.map_append]
    rfl

theorem refused (h : x₀.Books s x deeds a) (b : Backend) (pass : Reclaim) (task : Task) (e : StoreError) :
    x₀.Books s ⟨b, x.queue, x.tally, pass⟩
      (deeds ++ [.ask (.updateStatus task.id (Retirement.update s task)) (.error e)])
      { a with asked := a.asked ++ [task] } := by
  refine ⟨h.queue, ?_, ?_, h.sub.trans (List.sublist_append_left _ _), h.tally⟩
  · rw [List.filterMap_append, h.asked, List.map_append]
    rfl
  · rw [List.filterMap_append, h.made]
    exact List.append_nil _

theorem counted (h : x₀.Books s x deeds a) (b : Backend) (pass : Reclaim) (task : Task) :
    x₀.Books s ⟨b, x.queue, x.tally.record (Retirement.count s task), pass⟩
      (deeds ++ [.record (Retirement.count s task)]) { a with counted := a.counted ++ [task] } := by
  refine ⟨h.queue, ?_, ?_, h.sub, ?_⟩
  · rw [List.filterMap_append, h.asked]
    exact List.append_nil _
  · rw [List.filterMap_append, h.made]
    exact List.append_nil _
  · rw [Retirement.tallied_concat, ← h.tally]

end Books

/-- Where a pass stands and what has come of it go on together. -/
theorem Books.step (h : x₀.Books s x deeds a) (stands : x.pass.Stands threshold now x₀.queue ts a)
    (goes : x.pass.Goes s threshold x.store x.queue deed b pass') :
    ∃ a', pass'.Stands threshold now x₀.queue ts a' ∧
      x₀.Books s ⟨b, x.queue, deed.onTally x.tally, pass'⟩ (deeds ++ [deed]) a' := by
  obtain ⟨store, queue, tally, pass⟩ := x
  dsimp only at stands goes ⊢
  obtain rfl : queue = x₀.queue := h.queue
  have next {past : List Task} {task : Task} {rest : List Task} (cut : ts = past ++ task :: rest) :
      ts = past ++ [task] ++ rest := cut.trans (List.append_cons past task rest)
  cases goes with
  | calm calm =>
    cases calm with
    | listed wall answer => cases stands
    | dated read => cases stands
    | passed =>
      cases stands with
      | guarding cut => exact ⟨_, .checking cut, h.aside _ _ rfl rfl⟩
    | chosen untracked stale =>
      cases stands with
      | checking cut => exact ⟨_, .updating cut untracked stale, h.aside _ _ rfl rfl⟩
    | skipped kept =>
      cases stands with
      | checking cut =>
        refine ⟨_, Reclaim.stands_onward (next cut) rfl, ?_⟩
        rw [Reclaim.due_concat_of_kept kept]
        exact h.aside _ _ rfl rfl
    | retired hstage =>
      cases stands with
      | updating cut untracked stale =>
        cases hstage with
        | updated wall answer =>
          refine ⟨_, .counting cut, ?_⟩
          rw [Reclaim.due_concat untracked stale]
          exact h.updated _ _ _
      | counting cut =>
        cases hstage with
        | counted => exact ⟨_, .telling cut (.inl rfl), h.counted _ _ _⟩
      | telling cut counted =>
        cases hstage with
        | updated wall answer => rcases counted with hstage | ⟨read, hstage⟩ <;> cases hstage
        | counted => rcases counted with hstage | ⟨read, hstage⟩ <;> cases hstage
        | dated read => exact ⟨_, .telling cut (.inr ⟨read, rfl⟩), h.aside _ _ rfl rfl⟩
        | @told read =>
          exact ⟨_, Reclaim.stands_onward (next cut) (by simp), h.aside _ _ rfl rfl⟩
  | unlisted e => cases stands
  | refused e =>
    cases stands with
    | updating cut untracked stale =>
      refine ⟨_, Reclaim.stands_onward (next cut) rfl, ?_⟩
      rw [Reclaim.due_concat untracked stale]
      exact h.refused _ _ _ e
    | telling cut counted => rcases counted with hstage | ⟨read, hstage⟩ <;> cases hstage

/-- What is known of a pass that has listed some tasks. -/
inductive Sound (s : Settings) (threshold : Duration) (ts : List Task) (x₀ x : Recovery) (deeds : List Deed) :
    Prop where
  | dating (done : deeds = []) (stage : x.pass = .dating ts) (books : x₀.Books s x deeds ⟨[], [], []⟩)
  | dated {now : Timestamp} {more : List Deed} {a : Reclaim.Account} (done : deeds = .readWallClock now :: more)
      (stands : x.pass.Stands threshold now x₀.queue ts a) (books : x₀.Books s x deeds a)

theorem Reaches.sound (h : x₀.Reaches s threshold others faults x deeds) (listed : x₀.pass = .dating ts) :
    Sound s threshold ts x₀ x deeds := by
  induction h with
  | start => exact .dating rfl listed ⟨rfl, rfl, rfl, .refl [], rfl⟩
  | @step x y deeds o h m ih =>
    cases m with
    | requested wall may =>
      rw [Option.toList_none, List.append_nil]
      cases ih with
      | dating done stage books => exact .dating done stage (books.requested _)
      | dated done stands books => exact .dated done stands (books.requested _)
    | @own deed pass b q does met heard =>
      obtain rfl := met.queue_of_isAside (Reclaim.isAside_of_does does)
      cases ih with
      | dating done stage books =>
        rw [stage] at does
        cases does with
        | readWallClock now =>
          subst done
          exact .dated rfl (Reclaim.stands_onward (List.nil_append ts).symm rfl) (books.aside _ _ rfl rfl)
      | @dated now more a done stands books =>
        obtain ⟨a', hstands, hbooks⟩ := books.step stands (.of_does does met)
        have hdone : deeds ++ [deed] = .readWallClock now :: (more ++ [deed]) := by rw [done, List.cons_append]
        exact .dated hdone hstands hbooks

theorem Sound.ne_listing (h : Sound s threshold ts x₀ x deeds) : x.pass ≠ .listing := by
  cases h with
  | dating done stage books =>
    rw [stage]
    exact nofun
  | dated done stands books =>
    intro stage
    rw [stage] at stands
    cases stands

end Recovery

end Backlog.Dispatch

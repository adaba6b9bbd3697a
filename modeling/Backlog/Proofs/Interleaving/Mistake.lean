import Backlog.Proofs.Interleaving.Credit
import Backlog.Proofs.Interleaving.Landing

/-!
# Mistaken credits

A worker whose update fails for a passing reason makes it again, and when it is refused then, it takes the update for
done if the task looks as its own update would have left it.  The version and the status tell that somebody has moved
the task on in that way, but not who has.

Key facts: somebody who is credited has made the update, or has lost an attempt and found the update of somebody else
(`Earned`).  A transition is credited more than once exactly if somebody shares the credit who has not made it
(`System.Reaches.credited_once_iff`), and that does happen (`System.credited_twice`).
-/

namespace Backlog.Interleaving

open Dispatch Simulation Store

variable {x y : System} {p i : Nat} {s s' : Seat} {m : Memory} {es es' : List Event}

/-! ### Credits are earned or mistaken -/

/-- Whether an attempt of somebody to make an update has failed for a passing reason. -/
def LostUpdate (a : Author) (id : Int) (u : StatusUpdate) (es : List Event) : Prop :=
  ∃ e, Event.attempted a id u (.error e) ∈ es ∧ e.isTransient = true

/-- Whether somebody has lost an attempt to move a task on from a version. -/
def Lost (a : Author) (id version : Int) (es : List Event) : Prop :=
  ∃ u, u.expectedVersion = some version ∧ LostUpdate a id u es

theorem LostUpdate.mono {a : Author} {id : Int} {u : StatusUpdate} (h : LostUpdate a id u es)
    (hsub : es ⊆ es') : LostUpdate a id u es' := by
  obtain ⟨e, he, hpassing⟩ := h
  exact ⟨e, hsub he, hpassing⟩

/-- How a transition that is pursued goes on: it is over with an update that was acknowledged, or with a look at a task
that looks as it should after an attempt that has failed. -/
private theorem System.Serves.goesOn {settings : Settings} {q : Pursuit} (hq : pursuit? s.job = some q)
    (running : ∀ result, q.stage ≠ .done result) (h : x.Serves p i s (s.job.next settings) s' y es) :
    ∃ stage, pursuit? s'.job = some { q with stage } ∧ s'.round = s.round ∧
      (stage.hasFailed = true → q.stage.hasFailed = true ∨ LostUpdate ⟨p, i, s.round⟩ q.id q.update es) ∧
      (stage = .done (.ok ()) →
        ((x.store.perform x.wall (.updateStatus q.id q.update)).1 = .ok () ∧
          ∀ e ∈ landing x.store x.wall ⟨p, i, s.round⟩ (.updateStatus q.id q.update), e ∈ es) ∨
        (q.stage.hasFailed = true ∧ ∃ t, Transition.looksApplied q.update t = true ∧
          (x.store.perform x.wall (.getFresh q.id)).1 = .ok (some t))) := by
  obtain ⟨g, hnext, hg⟩ := next_of_pursuit settings hq running
  rw [hnext] at h
  cases hstage : q.stage with
  | updating failures backoff =>
    rw [hstage] at h
    obtain ⟨result, rfl, hattempt, hok⟩ := h.of_call
    refine ⟨_, hg _, rfl, ?_, ?_⟩
    · intro hfailed
      cases result with
      | ok a => cases hfailed
      | error e =>
        simp only [Transition.afterUpdate] at hfailed
        split at hfailed
        · rename_i hconflict
          exact .inl (decide_eq_true hconflict.2)
        · split at hfailed
          · rename_i hpassing
            exact .inr ⟨e, hattempt _ (List.mem_singleton_self _), hpassing.1⟩
          · cases hfailed
    · intro hdone
      cases result with
      | ok a => exact .inl (hok a rfl)
      | error e =>
        simp only [Transition.afterUpdate] at hdone
        split at hdone
        · cases hdone
        · split at hdone <;> cases hdone
  | pausing e failures backoff =>
    rw [hstage] at h
    obtain ⟨hround, hjob | hjob⟩ := h.of_sleep
    · rw [hjob]
      exact ⟨_, hg _, hround, fun _ => .inl rfl, fun hdone => by cases hdone⟩
    · rw [← Option.some.inj hjob]
      exact ⟨_, hg _, hround, fun hfailed => (by cases hfailed), fun hdone => by cases hdone⟩
  | confirming e =>
    rw [hstage] at h
    obtain ⟨result, rfl, -, hok⟩ := h.of_call
    refine ⟨_, hg _, rfl, fun _ => .inl rfl, fun hdone => .inr ⟨rfl, ?_⟩⟩
    cases result with
    | error e' => cases hdone
    | ok found =>
      cases found with
      | none => cases hdone
      | some t =>
        simp only [Transition.afterLookup] at hdone
        split at hdone
        · rename_i hlooks
          exact ⟨t, hlooks, (hok _ rfl).1⟩
        · cases hdone
  | done result => exact absurd hstage (running result)

/-- A job that pursues no transition, or one that is over, has not failed or succeeded by its next step. -/
private theorem System.Serves.startsAfresh {settings : Settings} {q : Pursuit}
    (finished : ∀ q, pursuit? s.job = some q → ∃ result, q.stage = .done result)
    (h : x.Serves p i s (s.job.next settings) s' y es) (hq : pursuit? s'.job = some q) :
    q.stage = .start settings := by
  rcases h.of_all (pursuit?_next settings s.job finished _ _) with ⟨rfl, hline⟩ | hstart
  · rw [not_isLine_of_pursuit settings hq] at hline
    cases hline
  · exact hstart q hq

/-- Whoever is credited has made the update, or has lost an attempt and found that somebody has made it. -/
def IsEarned (es : List Event) (a : Author) (id version : Int) : Prop :=
  Event.landed a id version ∈ es ∨ Lost a id version es ∧ (id, version) ∈ moves es

private theorem IsEarned.mono {a : Author} {id version : Int} (h : IsEarned es a id version) (es' : List Event) :
    IsEarned (es ++ es') a id version := by
  rcases h with hlanded | ⟨⟨u, hu, hlost⟩, hmove⟩
  · exact .inl (List.mem_append_left _ hlanded)
  · refine .inr ⟨⟨u, hu, hlost.mono (List.subset_append_left _ _)⟩, ?_⟩
    rw [moves_append]
    exact List.mem_append_left _ hmove

/-- All that was credited has been earned so, and whoever makes an attempt again has lost one. -/
structure Earned (x : System) (es : List Event) : Prop where
  tried : ∀ p i q, pursuit? (x.seats p i).job = some q → q.stage.hasFailed = true →
    LostUpdate ⟨p, i, (x.seats p i).round⟩ q.id q.update es
  earned : ∀ a c, (a, c) ∈ credits es → IsEarned es a c.1 c.2

private theorem earned_start (b : Backend) (wall : Timestamp) (settings : Nat → Settings) :
    Earned (.start b wall settings) [] where
  tried p i q hq := by cases hq
  earned a c hc := by cases hc

private theorem Earned.silent (h : Earned x es) (hseats : y.seats = x.seats) (hnone : credits es' = []) :
    Earned y (es ++ es') where
  tried p i q hq hfailed := by
    rw [hseats] at hq ⊢
    exact (h.tried p i q hq hfailed).mono (List.subset_append_left _ _)
  earned a c hc := by
    rw [credits_append, hnone, List.append_nil] at hc
    exact (h.earned a c hc).mono es'

private theorem Earned.setSeat (h : Earned x es) (p i : Nat) (s' : Seat) (hseats : y.seats = x.seats)
    (htried : ∀ q, pursuit? s'.job = some q → q.stage.hasFailed = true →
      LostUpdate ⟨p, i, s'.round⟩ q.id q.update (es ++ es'))
    (hearned : ∀ a c, (a, c) ∈ credits es' → IsEarned (es ++ es') a c.1 c.2) :
    Earned (y.setSeat p i s') (es ++ es') where
  tried q j pursuit hpursuit hfailed := by
    rw [System.seats_setSeat, hseats] at hpursuit ⊢
    split at hpursuit
    · rename_i hseat
      obtain ⟨rfl, rfl⟩ := hseat
      rw [if_pos ⟨rfl, rfl⟩]
      exact htried pursuit hpursuit hfailed
    · rename_i hseat
      rw [if_neg hseat]
      exact (h.tried q j pursuit hpursuit hfailed).mono (List.subset_append_left _ _)
  earned a c hc := by
    rw [credits_append, List.mem_append] at hc
    rcases hc with hc | hc
    · exact (h.earned a c hc).mono es'
    · exact hearned a c hc

/-- An update that was acknowledged is told of, with the version that it expects. -/
private theorem Ledger.landed_of_ok (h : Ledger x.store m es) (a : Author) {id version : Int} {u : StatusUpdate}
    (hv : u.expectedVersion = some version) (hok : (x.store.perform x.wall (.updateStatus id u)).1 = .ok ()) :
    Event.landed a id version ∈ landing x.store x.wall a (.updateStatus id u) := by
  obtain ⟨t, ht, hu⟩ := (h.represents.updateStatus_ok_iff h.ordered x.wall id u).1 hok
  rw [landing_of_admitted h.represents h.ordered x.wall a ht hu,
    (StatusUpdate.refusal?_eq_none_iff.1 hu).1 version hv]
  exact List.mem_singleton_self _

/-- A task that looks as a worker would have left it has been moved from the version that the worker expects. -/
private theorem Ledger.moved_of_looksApplied (h : Ledger x.store m es) {id version : Int} {u : StatusUpdate} {t : Task}
    (hstatus : u.status = .processing ∨ u.status = .completed) (hv : u.expectedVersion = some version)
    (hlooks : Transition.looksApplied u t = true)
    (hfound : (x.store.perform x.wall (.getFresh id)).1 = .ok (some t)) : (id, version) ∈ moves es := by
  obtain ⟨t', ht', rfl⟩ := h.exists_of_getFresh hfound
  unfold Transition.looksApplied at hlooks
  rw [hv] at hlooks
  obtain ⟨hsame, hversion⟩ := of_decide_eq_true hlooks
  rw [Backend.shows_status] at hsame
  rw [Backend.shows_version] at hversion
  have hentered := h.entered id t' ht'
  have hcount := hentered.counted
  refine hentered.told version ?_ (by omega)
  -- a task that nobody has moved still waits
  by_contra hneg
  have hpending := hentered.unmoved (by omega)
  rw [← hsame, hpending] at hstatus
  simp at hstatus

private theorem Earned.act (h : Earned x es) (hledger : Ledger x.store m es) {p i : Nat} {s' : Seat} {z : System}
    {es₁ : List Event}
    (hserves : x.Serves p i (x.seats p i) ((x.seats p i).job.next (x.runtimes p).settings) s' z es₁) :
    Earned (z.setSeat p i s')
      (es ++ (es₁ ++ (credit? s'.job).toList.map fun c => .credited ⟨p, i, s'.round⟩ c.1 c.2)) := by
  -- only a job that pursues a transition can come to be credited
  by_cases hrunning : ∃ q, pursuit? (x.seats p i).job = some q ∧ ∀ result, q.stage ≠ .done result
  · obtain ⟨q, hq, running⟩ := hrunning
    obtain ⟨stage, hstage, hround, hfails, hdone⟩ := hserves.goesOn hq running
    refine h.setSeat p i s' hserves.seats_eq (fun q' hq' hfailed => ?_) fun a c hc => ?_
    · rw [hstage] at hq'
      cases hq'
      rw [hround]
      rcases hfails hfailed with hbefore | hlost
      · exact (h.tried p i q hq hbefore).mono (List.subset_append_left _ _)
      · exact hlost.mono fun e he => List.mem_append_right _ (List.mem_append_left _ he)
    · obtain ⟨id, version⟩ := c
      rw [credits_append, hserves.credits_eq_nil, List.nil_append, credits_given] at hc
      obtain ⟨c', hc', heq⟩ := List.mem_map.1 hc
      cases heq
      obtain ⟨u, hu, hv⟩ := exists_of_credit? (Option.mem_toList.1 hc')
      rw [hstage] at hu
      cases hu
      rw [hround]
      rcases hdone rfl with ⟨hok, hlands⟩ | ⟨hfailed, t, hlooks, hfound⟩
      · have hlanded := hlands _ (hledger.landed_of_ok _ hv hok)
        exact .inl (List.mem_append_right _ (List.mem_append_left _ hlanded))
      · -- the look at the task tells that it was moved, but not by whom
        have hlost := h.tried p i q hq hfailed
        have hmoved := hledger.moved_of_looksApplied (status_of_pursuit hq) hv hlooks hfound
        refine .inr ⟨⟨q.update, hv, hlost.mono (List.subset_append_left _ _)⟩, ?_⟩
        rw [moves_append]
        exact List.mem_append_left _ hmoved
  · have finished (q : Pursuit) (hq : pursuit? (x.seats p i).job = some q) : ∃ result, q.stage = .done result := by
      by_contra hnot
      exact hrunning ⟨q, hq, fun result hdone => hnot ⟨result, hdone⟩⟩
    refine h.setSeat p i s' hserves.seats_eq (fun q' hq' hfailed => ?_) fun a c hc => ?_
    · rw [hserves.startsAfresh finished hq'] at hfailed
      cases hfailed
    · rw [credits_append, hserves.credits_eq_nil, List.nil_append, credits_given] at hc
      obtain ⟨c', hc', -⟩ := List.mem_map.1 hc
      obtain ⟨u, hu, -⟩ := exists_of_credit? (Option.mem_toList.1 hc')
      cases hserves.startsAfresh finished hu

private theorem pursuit?_of_isBeginning {job : Job} (h : isBeginning job = true) : pursuit? job = none := by
  cases job with
  | worker w => cases w <;> first | rfl | cases h
  | _ => rfl

private theorem Earned.step (h : Earned x es) (hledger : Ledger x.store m es) {c : Choice}
    (hstep : x.step c = some (y, es')) : Earned y (es ++ es') := by
  cases System.happens_of_step hstep with
  | @spawned p i round reply job free begins =>
    refine h.setSeat p i _ rfl (fun q hq => ?_) fun a c hc => by cases hc
    rw [pursuit?_of_isBeginning begins] at hq
    cases hq
  | acted serves => exact h.act hledger serves
  | landed drifts => exact h.silent rfl (credits_landing _ _ _ _)
  | cancelled => exact h.silent rfl rfl
  | timed => exact h.silent rfl rfl

/-! ### How often a transition is credited -/

/-- Those who are credited with moving a task on from a version. -/
def creditors (id version : Int) (es : List Event) : List Author :=
  ((credits es).filter fun d => d.2 = (id, version)).map Prod.fst

private theorem mem_creditors {id version : Int} {a : Author} :
    a ∈ creditors id version es ↔ (a, id, version) ∈ credits es := by
  unfold creditors
  constructor
  · intro ha
    obtain ⟨⟨a', c⟩, hd, rfl⟩ := List.mem_map.1 ha
    obtain ⟨hmem, hc⟩ := List.mem_filter.1 hd
    obtain rfl : c = (id, version) := of_decide_eq_true hc
    exact hmem
  · intro ha
    exact List.mem_map.2 ⟨_, List.mem_filter.2 ⟨ha, decide_eq_true rfl⟩, rfl⟩

private theorem Fair.nodup_creditors (h : Fair x es) (id version : Int) : (creditors id version es).Nodup := by
  unfold creditors
  refine List.pairwise_map.2 ((h.nodup.filter _).imp_of_mem fun {d d'} hd hd' hne hsame => hne ?_)
  have hd₂ : d.2 = (id, version) := of_decide_eq_true (List.mem_filter.1 hd).2
  have hd₂' : d'.2 = (id, version) := of_decide_eq_true (List.mem_filter.1 hd').2
  exact Prod.ext hsame (hd₂.trans hd₂'.symm)

/-- One update at most moves a task on from a version. -/
private theorem eq_of_landed (hnodup : (moves es).Nodup) {a a' : Author} {id version : Int}
    (h : Event.landed a id version ∈ es) (h' : Event.landed a' id version ∈ es) : a = a' := by
  induction es with
  | nil => cases h
  | cons e es ih =>
    have htail : (moves es).Nodup := hnodup.sublist ((List.sublist_cons_self e es).filterMap Event.move?)
    rcases List.mem_cons.1 h with rfl | h₁
    · rcases List.mem_cons.1 h' with heq | h₁'
      · injection heq with ha
        exact ha.symm
      · exact absurd (mem_moves.2 ⟨a', h₁'⟩) (List.nodup_cons.1 hnodup).1
    · rcases List.mem_cons.1 h' with rfl | h₁'
      · exact absurd (mem_moves.2 ⟨a, h₁⟩) (List.nodup_cons.1 hnodup).1
      · exact ih htail h₁ h₁'

private theorem length_le_one_iff {l : List Author} (h : l.Nodup) :
    l.length ≤ 1 ↔ ∀ a ∈ l, ∀ a' ∈ l, a' = a := by
  constructor
  · intro hle a ha a' ha'
    cases l with
    | nil => cases ha
    | cons b rest =>
      obtain rfl : rest = [] := List.length_eq_zero_iff.1 (Nat.le_zero.1 (Nat.le_of_succ_le_succ hle))
      rw [List.mem_singleton.1 ha, List.mem_singleton.1 ha']
  · intro hsame
    cases l with
    | nil => exact Nat.zero_le _
    | cons b rest =>
      cases rest with
      | nil => exact Nat.le_refl _
      | cons c rest =>
        have heq := hsame b List.mem_cons_self c (List.mem_cons_of_mem _ List.mem_cons_self)
        rw [heq] at h
        exact absurd List.mem_cons_self (List.nodup_cons.1 h).1

theorem earned_of_reaches {b : Backend} {wall : Timestamp} {settings : Nat → Settings}
    {allowed : Choice → Prop} (hb : b = .memory .empty ∨ b = .table .fresh)
    (h : System.Reaches allowed (.start b wall settings) x es) (few : ∀ id, (moveCount id es : Int) ≤ Sql.mostInteger) :
    Earned x es := by
  induction h with
  | start => exact earned_start b wall settings
  | @step x y es es' c hbefore _ hstep ih =>
    have hfew (id : Int) : (moveCount id es : Int) ≤ Sql.mostInteger := by
      have hsum := few id
      rw [moveCount_append] at hsum
      omega
    obtain ⟨m, hledger⟩ := ledger_of_reaches hb hbefore hfew
    exact (ih hfew).step hledger hstep

/-- **Main theorem.**  Let any number of runtimes and other callers share a store of either kind, in whatever order
they act, and let no task be moved more often than 64 bits can count.  For every task and every version, only one
update moves the task on from it; nobody is credited with that twice; and whoever is credited without having made
the update has lost an attempt to make it, and somebody else has made it.  So the transition is credited once at
most if and only if nobody who has not made it shares the credit with another one, which holds if all whose attempts
were lost have made it all the same. -/
theorem System.Reaches.credited_once_iff {b : Backend} {wall : Timestamp} {settings : Nat → Settings}
    {allowed : Choice → Prop} (hb : b = .memory .empty ∨ b = .table .fresh)
    (h : System.Reaches allowed (.start b wall settings) x es) (few : ∀ id, (moveCount id es : Int) ≤ Sql.mostInteger)
    (id version : Int) :
    (∀ a a', Event.landed a id version ∈ es → Event.landed a' id version ∈ es → a = a') ∧
      (creditors id version es).Nodup ∧
      (∀ a ∈ creditors id version es, Event.landed a id version ∉ es →
        Lost a id version es ∧ ∃ a', a' ≠ a ∧ Event.landed a' id version ∈ es) ∧
      ((creditors id version es).length ≤ 1 ↔ ¬ ∃ a ∈ creditors id version es, Event.landed a id version ∉ es ∧
        ∃ a' ∈ creditors id version es, a' ≠ a) ∧
      ((∀ a, Lost a id version es → Event.landed a id version ∈ es) → (creditors id version es).length ≤ 1) := by
  obtain ⟨m, hledger⟩ := ledger_of_reaches hb h few
  have hearned := earned_of_reaches hb h few
  have hone {a a' : Author} (ha : Event.landed a id version ∈ es) (ha' : Event.landed a' id version ∈ es) : a = a' :=
    eq_of_landed hledger.nodup ha ha'
  have hnodup := (fair_of_reaches h).nodup_creditors id version
  have hlost {a : Author} (ha : a ∈ creditors id version es) (hnot : Event.landed a id version ∉ es) :
      Lost a id version es ∧ ∃ a', a' ≠ a ∧ Event.landed a' id version ∈ es := by
    rcases hearned.earned a _ (mem_creditors.1 ha) with hlanded | ⟨hlost, hmove⟩
    · exact absurd hlanded hnot
    · obtain ⟨a', ha'⟩ := mem_moves.1 hmove
      refine ⟨hlost, a', ?_, ha'⟩
      rintro rfl
      exact hnot ha'
  have hiff : (creditors id version es).length ≤ 1 ↔ ¬ ∃ a ∈ creditors id version es,
      Event.landed a id version ∉ es ∧ ∃ a' ∈ creditors id version es, a' ≠ a := by
    rw [length_le_one_iff hnodup]
    constructor
    · rintro hsame ⟨a, ha, -, a', ha', hne⟩
      exact hne (hsame a ha a' ha')
    · intro hshared a ha a' ha'
      by_contra hne
      -- of two who are credited, one has not made the update
      by_cases hlanded : Event.landed a id version ∈ es
      · refine hshared ⟨a', ha', fun hlanded' => hne (hone hlanded' hlanded), a, ha, ?_⟩
        exact fun heq => hne heq.symm
      · exact hshared ⟨a, ha, hlanded, a', ha', hne⟩
  refine ⟨fun a a' => hone, hnodup, fun a => hlost, hiff, fun hmade => hiff.2 ?_⟩
  rintro ⟨a, ha, hnot, -⟩
  exact hnot (hmade a (hlost ha hnot).1)

/-- A runtime lists the tasks, and one of its workers takes the first of them and is about to claim it. -/
def untilClaim (p : Nat) : List Choice :=
  [[.spawn p 0 (.poll .starting)], List.replicate 7 (.act p 0 .go), [.spawn p 1 (.worker .idle)],
    List.replicate 3 (.act p 1 .go)].flatten

/-- The claim of a worker is made although its answer is lost, and the worker finds that out. -/
def confirmedClaim : List Choice :=
  [[.spawn 0 0 (.ask (.create ⟨"text", "user"⟩) none), .act 0 0 .go], untilClaim 0,
    [.act 0 1 (.fail (.unavailable "down")), .land 0], List.replicate 3 (.act 0 1 .go)].flatten

/-- A worker that has made a claim and lost the answer is the only one who is credited with it. -/
theorem System.credited_once_of_confirmedClaim : ∃ x es,
    System.Reaches (fun _ => True) (.start (.memory .empty) default fun _ => .standard) x es ∧
      ⟨0, 1, 2⟩ ∈ creditors 1 0 es ∧ (creditors 1 0 es).length ≤ 1 := by
  have allowed : ∀ c ∈ confirmedClaim, (fun _ => True) c := fun _ _ => trivial
  have reaches := System.Reaches.start.run
    (x := .start (.memory .empty) default fun _ => .standard) allowed rfl
  obtain ⟨-, -, -, hiff, -⟩ := reaches.credited_once_iff (.inl rfl)
    (fun id => Int.le_trans (Int.ofNat_le.2 (moveCount_le id _)) (show (1 : Int) ≤ Sql.mostInteger by decide)) 1 0
  refine ⟨_, _, reaches, List.mem_singleton_self _, hiff.2 ?_⟩
  rintro ⟨a, ha, hnot, -⟩
  obtain rfl := List.mem_singleton.1 ha
  exact hnot (.tail _ (.head _))

/-- A claim is lost on its way, and another runtime claims the task before it is made again. -/
def mistakenClaim : List Choice :=
  [[.spawn 0 0 (.ask (.create ⟨"text", "user"⟩) none), .act 0 0 .go], untilClaim 0, untilClaim 1,
    [.act 0 1 (.fail (.unavailable "down")), .act 1 1 .go], List.replicate 3 (.act 0 1 .go)].flatten

/-- Two workers of different runtimes are credited with the same claim. -/
theorem System.credited_twice : ∃ x es,
    System.Reaches (fun _ => True) (.start (.memory .empty) default fun _ => .standard) x es ∧
      creditors 1 0 es = [⟨1, 1, 2⟩, ⟨0, 1, 2⟩] := by
  have allowed : ∀ c ∈ mistakenClaim, (fun _ => True) c := fun _ _ => trivial
  have reaches := System.Reaches.start.run
    (x := .start (.memory .empty) default fun _ => .standard) allowed rfl
  exact ⟨_, _, reaches, rfl⟩

end Backlog.Interleaving

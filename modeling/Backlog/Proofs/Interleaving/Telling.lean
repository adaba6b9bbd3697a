import Backlog.Proofs.Interleaving.Counting
import Backlog.Proofs.Interleaving.Mistake
import Backlog.Store.Shelf

/-!
# Notices tell what has happened

A worker or a dispatcher gives a notice of the update that it has attempted last, and only after the task has moved as
the update says, be it by this update or by another one that has left the task looking alike.

Key facts: a stored task has moved into the status that it has, from the version before (`Truthful.history`), and so has
the task of every promise (`Truthful.made`).  So notices are true, and they are as many as are counted
(`System.Follows.tells_what_happened`).
-/

namespace Backlog

open Dispatch Simulation Store

/-- The update that a deed tries to make. -/
def Dispatch.Deed.update? : Deed → Option (Int × StatusUpdate)
  | ask (.updateStatus id u) _ => some (id, u)
  | _ => none

namespace Interleaving

variable {b : Backend} {m m' : Memory} {x x₀ y : System} {p i : Nat} {s s' : Seat} {es es' : List Event} {a a' : Author}
  {deed : Deed} {id : Int} {allowed : Choice → Prop}

/-! ### The last attempt -/

/-- The update with which somebody has come back from the store. -/
def Event.attempt? (a : Author) : Event → Option (Int × StatusUpdate)
  | .attempted a' id u _ => if a' = a then some (id, u) else none
  | _ => none

/-- The update with which somebody has come back from the store last. -/
def lastAttempt? (a : Author) (es : List Event) : Option (Int × StatusUpdate) :=
  (es.filterMap (Event.attempt? a)).getLast?

private theorem lastAttempt?_of_none (h : es'.filterMap (Event.attempt? a) = []) :
    lastAttempt? a (es ++ es') = lastAttempt? a es := by
  unfold lastAttempt?
  rw [List.filterMap_append, h, List.append_nil]

private theorem attempts_landing (b : Backend) (wall : Timestamp) (a' : Author) (r : Request) :
    (landing b wall a' r).filterMap (Event.attempt? a) = [] := by
  cases r with
  | updateStatus id u =>
    simp only [landing]
    split
    · cases b.versionOf? id <;> rfl
    · rfl
  | _ => rfl

private theorem attempts_credits (a' : Author) (o : Option (Int × Int)) :
    (o.toList.map fun c => Event.credited a' c.1 c.2).filterMap (Event.attempt? a) = [] := by cases o <;> rfl

private theorem attempts_attempt (a' : Author) (r : Request) (result : Except StoreError r.Answer) :
    (System.attempt a' r result).filterMap (Event.attempt? a)
      = if a' = a then ((Deed.ask r result).update?).toList else [] := by
  cases r with
  | updateStatus id u =>
    show List.filterMap (Event.attempt? a) [.attempted a' id u result] = _
    by_cases h : a' = a <;> simp [Event.attempt?, Deed.update?, h]
  | _ => simp [System.attempt, Deed.update?]

/-- Whoever has done a deed has come back with the update of the deed, and nobody else with any. -/
private theorem attempts_of_stored (h : System.Stored x a' deed y es) :
    es.filterMap (Event.attempt? a) = if a' = a then deed.update?.toList else [] := by
  cases h with
  | answered answer store drifting =>
    rw [List.filterMap_append, attempts_landing, List.nil_append, attempts_attempt]
  | failed passing store drifting => exact attempts_attempt _ _ _
  | refused superseded store drifting => exact attempts_attempt _ _ _
  | dropped store drifting => simp [Deed.update?]
  | aside noCall store drifting =>
    have hnone : deed.update? = none := by
      cases deed <;> first
        | rfl
        | cases noCall
    simp [hnone]

/-! ### What a task has moved into -/

/-- Whether a task has moved into a status from a version, in one of the steps that have led from one state to
another. -/
def System.MovedInto (x : System) (allowed : Choice → Prop) (x₀ : System) (es : List Event) (id : Int)
    (status : Status) (version : Int) : Prop :=
  ∃ before after es₁ es₂ es₃ c a, Reaches allowed x₀ before es₁ ∧ before.step c = some (after, es₂) ∧
    Reaches allowed after x es₃ ∧ es = es₁ ++ es₂ ++ es₃ ∧ a.canMoveTo status = true ∧
    before.store.stateOf? id = some (a, version) ∧ after.store.stateOf? id = some (status, version + 1)

private theorem System.MovedInto.mono {status : Status} {version : Int}
    (h : x.MovedInto allowed x₀ es id status version) {c : Choice} (ok : allowed c)
    (hstep : x.step c = some (y, es')) : y.MovedInto allowed x₀ (es ++ es') id status version := by
  obtain ⟨before, after, es₁, es₂, es₃, c', a, hbefore, hmove, hafter, rfl, hstates⟩ := h
  exact ⟨before, after, es₁, es₂, es₃ ++ es', c', a, hbefore, hmove, hafter.step ok hstep,
    List.append_assoc _ _ _, hstates⟩

/-- A stored task has just been created, or its status and its version are as they were, or it has moved to the next
version. -/
private theorem Advances.state {b' : Backend} (advances : Advances b m b' m') (hm : m.Ordered) {t' : Task}
    (ht' : m'.find? id = some t') (moved : 0 < t'.version) : ∃ t, m.find? id = some t ∧
      (t'.status = t.status ∧ t'.version = t.version ∨
        t.status.canMoveTo t'.status = true ∧ t'.version = t.version + 1) := by
  cases advances with
  | stay => exact ⟨t', ht', .inl ⟨rfl, rfl⟩⟩
  | @hear r r' wall now' heard =>
    rcases hm.origin now' r' ht' with ⟨new, -, -, rfl⟩ | ⟨t, ht, rfl | ⟨text, -, rfl⟩ | ⟨u, -, hu, rfl⟩⟩
    · exact absurd moved (Int.lt_irrefl 0)
    · exact ⟨t', ht, .inl ⟨rfl, rfl⟩⟩
    · exact ⟨t, ht, .inl ⟨rfl, rfl⟩⟩
    · exact ⟨t, ht, .inr ⟨(StatusUpdate.refusal?_eq_none_iff.1 hu).2, rfl⟩⟩

/-! ### Every promise is true -/

/-- Stored tasks have moved to where they are, and what has been promised has happened. -/
structure Truthful (allowed : Choice → Prop) (x₀ x : System) (m : Memory) (es : List Event) : Prop where
  reaches : System.Reaches allowed x₀ x es
  ledger : Ledger x.store m es
  history : ∀ id t, m.find? id = some t → 0 < t.version →
    x.MovedInto allowed x₀ es id t.status (t.version - 1)
  tried : ∀ p i c, tried? (x.seats p i).job = some c → lastAttempt? ⟨p, i, (x.seats p i).round⟩ es = some c
  made : ∀ p i d, promise? (x.runtimes p).settings (x.seats p i).job = some d →
    lastAttempt? ⟨p, i, (x.seats p i).round⟩ es = some (d.id, d.update) ∧
      ∃ version, d.update.expectedVersion = some version ∧
        x.MovedInto allowed x₀ es d.id d.update.status version

private theorem truthful_start (hb : b = .memory .empty ∨ b = .table .fresh) (wall : Timestamp)
    (settings : Nat → Settings) :
    Truthful allowed (.start b wall settings) (.start b wall settings) .empty [] where
  reaches := .start
  ledger := ledger_start hb
  history id t ht := by cases ht
  tried p i c hc := by cases hc
  made p i d hd := by cases hd

private theorem tried?_of_isBeginning {job : Job} (h : isBeginning job = true) : tried? job = none := by
  cases job with
  | worker w => cases w <;> first | rfl | cases h
  | _ => rfl

/-- What was promised in a seat stays true as long as the seat does not come back with another update. -/
private theorem Truthful.others (h : Truthful allowed x₀ x m es) {c : Choice} (ok : allowed c)
    (hstep : x.step c = some (y, es')) {p i : Nat} (hseat : y.seats p i = x.seats p i)
    (none : es'.filterMap (Event.attempt? ⟨p, i, (x.seats p i).round⟩) = []) :
    (∀ c, tried? (y.seats p i).job = some c → lastAttempt? ⟨p, i, (y.seats p i).round⟩ (es ++ es') = some c) ∧
      ∀ d, promise? (y.runtimes p).settings (y.seats p i).job = some d →
        lastAttempt? ⟨p, i, (y.seats p i).round⟩ (es ++ es') = some (d.id, d.update) ∧
          ∃ version, d.update.expectedVersion = some version ∧
            y.MovedInto allowed x₀ (es ++ es') d.id d.update.status version := by
  rw [hseat, lastAttempt?_of_none none, ((System.occurs_of_step hstep).runtime p).1]
  refine ⟨h.tried p i, fun d hd => ?_⟩
  obtain ⟨hlast, version, hexpects, hmoved⟩ := h.made p i d hd
  exact ⟨hlast, version, hexpects, hmoved.mono ok hstep⟩

/-- A task that looks as a worker would have left it has moved into the status that the worker has meant. -/
private theorem Truthful.moved_of_looksApplied (h : Truthful allowed x₀ x m es) {u : StatusUpdate} {t : Task}
    {version : Int} (hstatus : u.status = .processing ∨ u.status = .completed)
    (expects : u.expectedVersion = some version) (looks : Transition.looksApplied u t = true)
    (hfound : (x.store.perform x.wall (.getFresh id)).1 = .ok (some t)) :
    x.MovedInto allowed x₀ es id u.status version := by
  obtain ⟨t', ht', rfl⟩ := h.ledger.exists_of_getFresh hfound
  unfold Transition.looksApplied at looks
  rw [expects] at looks
  obtain ⟨hsame, hversion⟩ := of_decide_eq_true looks
  rw [Backend.shows_status] at hsame
  rw [Backend.shows_version] at hversion
  have hentered := h.ledger.entered id t' ht'
  have hcount := hentered.counted
  have hmoved : 0 < t'.version := by
    -- a task that nobody has moved still waits
    by_contra hnot
    have hpending := hentered.unmoved (by omega)
    rw [← hsame, hpending] at hstatus
    simp at hstatus
  have hhistory := h.history id t' ht' hmoved
  rwa [hsame, hversion, Int.add_sub_cancel] at hhistory

/-- A job that has acted: what it has tried in vain is its last attempt, and what it promises now has happened. -/
private theorem Truthful.acted (h : Truthful allowed x₀ x m es) {how : How} (ok : allowed (.act p i how))
    {es₁ : List Event}
    (hstep : x.step (.act p i how) =
      some (y.setSeat p i s', es₁ ++ (credit? s'.job).toList.map fun c => .credited ⟨p, i, s'.round⟩ c.1 c.2))
    (few : ∀ k, (moveCount k (es ++ es₁) : Int) ≤ Sql.mostInteger)
    (does : ((x.seats p i).job.next (x.runtimes p).settings).Does (x.seats p i).job deed s'.job)
    (did : System.Did x p i (x.seats p i) deed s' y es₁) :
    let es' := es₁ ++ (credit? s'.job).toList.map fun c => .credited ⟨p, i, s'.round⟩ c.1 c.2
    (∀ c, tried? s'.job = some c → lastAttempt? ⟨p, i, s'.round⟩ (es ++ es') = some c) ∧
      ∀ d, promise? (x.runtimes p).settings s'.job = some d →
        lastAttempt? ⟨p, i, s'.round⟩ (es ++ es') = some (d.id, d.update) ∧
          ∃ version, d.update.expectedVersion = some version ∧
            (y.setSeat p i s').MovedInto allowed x₀ (es ++ es') d.id d.update.status version := by
  intro es'
  have hattempts : es'.filterMap (Event.attempt? ⟨p, i, (x.seats p i).round⟩) = deed.update?.toList := by
    rw [List.filterMap_append, attempts_credits, List.append_nil, attempts_of_stored did.stored, if_pos rfl]
  have hround (notTake : deed.isTake = false) : s'.round = (x.seats p i).round := by
    rw [did.round, notTake]
    rfl
  -- whoever has asked for an update has come back with it, and with nothing new otherwise
  have hnew {c : Int × StatusUpdate} (hupdate : deed.update? = some c) :
      lastAttempt? ⟨p, i, (x.seats p i).round⟩ (es ++ es') = some c := by
    unfold lastAttempt?
    rw [List.filterMap_append, hattempts, hupdate]
    exact List.getLast?_concat
  have hold (hupdate : deed.update? = none) : lastAttempt? ⟨p, i, (x.seats p i).round⟩ (es ++ es')
      = lastAttempt? ⟨p, i, (x.seats p i).round⟩ es := by
    refine lastAttempt?_of_none ?_
    rw [hattempts, hupdate]
    rfl
  have hquiet (noCall : deed.isCall = false) : deed.update? = none := by
    cases deed <;> first
      | rfl
      | cases noCall
  constructor
  · rintro ⟨id, u⟩ htried
    rcases tried_of_does does htried with ⟨e, rfl⟩ | ⟨hearlier, noCall, notTake⟩
    · rw [hround rfl]
      exact hnew rfl
    · rw [hround notTake, hold (hquiet noCall)]
      exact h.tried p i _ hearlier
  · intro d hd
    have hturns := promise_turns does
    rw [hd] at hturns
    have kept {d' : Promise} (hd' : promise? (x.runtimes p).settings (x.seats p i).job = some d')
        (noCall : deed.isCall = false) (notTake : deed.isTake = false) (hsame : d'.id = d.id ∧ d'.update = d.update) :
        lastAttempt? ⟨p, i, s'.round⟩ (es ++ es') = some (d.id, d.update) ∧
          ∃ version, d.update.expectedVersion = some version ∧
            (y.setSeat p i s').MovedInto allowed x₀ (es ++ es') d.id d.update.status version := by
      obtain ⟨hlast, version, hexpects, hmoved⟩ := h.made p i d' hd'
      rw [hsame.1, hsame.2] at hlast hmoved
      rw [hsame.2] at hexpects
      rw [hround notTake, hold (hquiet noCall)]
      exact ⟨hlast, version, hexpects, hmoved.mono ok hstep⟩
    obtain ⟨version, hexpects⟩ := expects_of_promise hd
    generalize hbefore : promise? (x.runtimes p).settings (x.seats p i).job = o at hturns
    cases hturns with
    | @acknowledged id u =>
      rw [hround rfl]
      refine ⟨hnew rfl, version, hexpects, ?_⟩
      obtain ⟨hok, hstore, hfew⟩ : (x.store.perform x.wall (.updateStatus id u)).1 = .ok () ∧
          y.store = (x.store.perform x.wall (.updateStatus id u)).2 ∧ ∀ k, (moveCount k
            (es ++ landing x.store x.wall ⟨p, i, (x.seats p i).round⟩ (.updateStatus id u)) : Int) ≤
              Sql.mostInteger := by
        cases did.stored with
        | answered answer store drifting =>
          refine ⟨answer, store, fun k => ?_⟩
          have hk := few k
          rw [← List.append_assoc, moveCount_append] at hk
          omega
        | aside noCall store drifting => cases noCall
      obtain ⟨a, hmove, hfrom, hinto⟩ := h.ledger.state_of_ok x.wall _ hfew hexpects hok
      refine ⟨x, y.setSeat p i s', es, es', [], _, a, h.reaches, hstep, .start, (List.append_nil _).symm, hmove, hfrom,
        ?_⟩
      show y.store.stateOf? id = _
      rw [hstore]
      exact hinto
    | @found id u t failed looks =>
      rw [hround rfl, hold rfl]
      refine ⟨h.tried p i _ failed, version, hexpects, ?_⟩
      have hfound : (x.store.perform x.wall (.getFresh id)).1 = .ok (some t) := by
        cases did.stored with
        | answered answer store drifting => exact answer
        | aside noCall store drifting => cases noCall
      exact (h.moved_of_looksApplied (status_of_tried failed) hexpects looks hfound).mono ok hstep
    | counted status => exact kept hbefore rfl rfl ⟨rfl, rfl⟩
    | aside uncounted untold quiet =>
      rcases quiet with hnone | ⟨noCall, notTake⟩
      · cases hnone
      · exact kept hbefore noCall notTake ⟨rfl, rfl⟩

/-- A stored task has come to where it is by the step that has just been made, or by an earlier one. -/
private theorem Truthful.history_step (h : Truthful allowed x₀ x m es) {c : Choice} (ok : allowed c)
    (hstep : x.step c = some (y, es')) (hafter : Ledger y.store m' (es ++ es'))
    (advances : Advances x.store m y.store m') {t : Task} (ht : m'.find? id = some t) (moved : 0 < t.version) :
    y.MovedInto allowed x₀ (es ++ es') id t.status (t.version - 1) := by
  obtain ⟨t₀, ht₀, ⟨hstatus, hversion⟩ | ⟨hmove, hversion⟩⟩ := advances.state h.ledger.ordered ht moved
  · rw [hstatus, hversion]
    exact (h.history id t₀ ht₀ (by omega)).mono ok hstep
  · refine ⟨x, y, es, es', [], c, t₀.status, h.reaches, hstep, .start, (List.append_nil _).symm, hmove, ?_, ?_⟩
    · rw [stateOf?_eq h.ledger.represents, ht₀, hversion, Int.add_sub_cancel]
      rfl
    · rw [stateOf?_eq hafter.represents, ht, Int.sub_add_cancel]
      rfl

/-- Whatever happens, what is promised stays true, and what is promised anew is true. -/
private theorem Truthful.step (h : Truthful allowed x₀ x m es) {c : Choice} (ok : allowed c)
    (hstep : x.step c = some (y, es')) (few : ∀ k, (moveCount k (es ++ es') : Int) ≤ Sql.mostInteger) :
    ∃ m', Truthful allowed x₀ y m' (es ++ es') := by
  obtain ⟨m', hledger, hadvances⟩ := h.ledger.step hstep few
  have seats (p i : Nat) :
      (∀ c, tried? (y.seats p i).job = some c → lastAttempt? ⟨p, i, (y.seats p i).round⟩ (es ++ es') = some c) ∧
        ∀ d, promise? (y.runtimes p).settings (y.seats p i).job = some d →
          lastAttempt? ⟨p, i, (y.seats p i).round⟩ (es ++ es') = some (d.id, d.update) ∧
            ∃ version, d.update.expectedVersion = some version ∧
              y.MovedInto allowed x₀ (es ++ es') d.id d.update.status version := by
    cases System.occurs_of_step hstep with
    | @spawned q j round reply job free begins =>
      by_cases hseat : p = q ∧ i = j
      · obtain ⟨rfl, rfl⟩ := hseat
        rw [System.seats_setSeat, if_pos ⟨rfl, rfl⟩, tried?_of_isBeginning begins, promise?_of_isBeginning begins]
        constructor
        · rintro c ⟨⟩
        · rintro d ⟨⟩
      · exact h.others ok hstep (by rw [System.seats_setSeat, if_neg hseat]) rfl
    | @acted q j how deed s' z es₁ does did =>
      by_cases hseat : p = q ∧ i = j
      · obtain ⟨rfl, rfl⟩ := hseat
        have hsettings : ((z.setSeat p i s').runtimes p).settings = (x.runtimes p).settings := did.settings
        rw [System.seats_setSeat, if_pos ⟨rfl, rfl⟩, hsettings]
        rw [← List.append_assoc] at few
        exact h.acted ok hstep (few_of_append few) does did
      · refine h.others ok hstep (by rw [System.seats_setSeat, if_neg hseat, did.seats]) ?_
        have hother : ¬ (⟨q, j, (x.seats q j).round⟩ : Author) = ⟨p, i, (x.seats p i).round⟩ := by
          rintro ⟨⟩
          exact hseat ⟨rfl, rfl⟩
        rw [List.filterMap_append, attempts_credits, attempts_of_stored did.stored, if_neg hother]
        rfl
    | landed drifts => exact h.others ok hstep rfl (attempts_landing _ _ _ _)
    | cancelled => exact h.others ok hstep rfl rfl
    | timed => exact h.others ok hstep rfl rfl
  exact ⟨m', h.reaches.step ok hstep, hledger, fun _ _ => h.history_step ok hstep hledger hadvances,
    fun p i => (seats p i).1, fun p i => (seats p i).2⟩

private theorem truthful_of_reaches {wall : Timestamp} {settings : Nat → Settings}
    (hb : b = .memory .empty ∨ b = .table .fresh) (h : System.Reaches allowed (.start b wall settings) x es)
    (few : ∀ k, (moveCount k es : Int) ≤ Sql.mostInteger) :
    ∃ m, Truthful allowed (.start b wall settings) x m es := by
  induction h with
  | start => exact ⟨_, truthful_start hb wall settings⟩
  | step _ ok hstep ih =>
    obtain ⟨m, hbefore⟩ := ih (few_of_append few)
    exact hbefore.step ok hstep few

/-! ### What is asked past the copies -/

/-- Whether no shelf of copies answers a request. -/
def Bypasses (r : Request) : Prop := ∀ shelf now, (Shelf.find? shelf now r).1 = none

/-- Whatever a job asks that does not just pass on a request is asked of the store itself. -/
private theorem bypasses_next (s : Settings) {job : Job} (own : ∀ r limit, job ≠ .ask r limit) :
    (job.next s).Asks Bypasses :=
  asks_of_parts (fun _ _ _ => rfl) (fun _ _ _ _ => rfl)
    (fun _ _ => asks_worker (fun _ _ _ => rfl) (fun _ _ _ _ _ _ _ => rfl) fun _ _ _ _ _ _ _ => rfl)
    fun r limit hr => absurd hr (own r limit)

/-- **Main theorem.**  Let any number of runtimes and other callers share a store of either kind, in whatever order
they act, let calls fail with and without effect, and let no task be moved more often than 64 bits can count.  Whoever
is about to give a notice has last attempted an update of the same task to the same status, and the task has moved into
that status from the version which that update expects.  A runtime of which no seat is between counting and telling has
given as many notices of tasks in processing as it has counted claims, and likewise for the other three counters.  And
no shelf of copies in front of the store answers anything that its loops ask, so what they see is stored. -/
theorem System.Follows.tells_what_happened {wall : Timestamp} {settings : Nat → Settings} {deeds : List (Nat × Deed)}
    (hb : b = .memory .empty ∨ b = .table .fresh)
    (h : System.Follows allowed p (.start b wall settings) x es deeds)
    (few : ∀ id, (moveCount id es : Int) ≤ Sql.mostInteger) :
    (∀ q i userId event next, (x.seats q i).job.next (x.runtimes q).settings = .notify userId event next →
      ∃ u version, lastAttempt? ⟨q, i, (x.seats q i).round⟩ es = some (event.taskId, u) ∧ u.status = event.status ∧
        u.expectedVersion = some version ∧
        x.MovedInto allowed (.start b wall settings) es event.taskId event.status version) ∧
      ((∀ i, owed? (x.runtimes p).settings (x.seats p i).job = none) →
        noticeCount .processing deeds = (x.runtimes p).tally.claimed ∧
          noticeCount .completed deeds = (x.runtimes p).tally.completed ∧
          noticeCount .pending deeds = (x.runtimes p).tally.reclaimed ∧
          noticeCount .failed deeds = (x.runtimes p).tally.deadLettered) ∧
      ∀ q i, (∀ r limit, (x.seats q i).job ≠ .ask r limit) →
        ((x.seats q i).job.next (x.runtimes q).settings).Asks Bypasses := by
  refine ⟨fun q i userId event next hnotify => ?_, fun settled => ?_, fun q i => bypasses_next _⟩
  · obtain ⟨m, htruthful⟩ := truthful_of_reaches hb h.reaches few
    obtain ⟨u, hpromise, hstatus⟩ := promise_of_notify hnotify
    obtain ⟨hlast, version, hexpects, hmoved⟩ := htruthful.made q i _ hpromise
    exact ⟨u, version, hlast, hstatus.symm, hexpects, hstatus ▸ hmoved⟩
  · have htold := h.told_eq settled
    exact ⟨(htold .processing).symm, (htold .completed).symm, (htold .pending).symm, (htold .failed).symm⟩

/-- A worker whose claim was made but not acknowledged tells of the claim, and then its runtime has told of one claim as
it has counted one. -/
theorem System.tells_what_happened_of_confirmedClaim : ∃ x y es es' deeds deeds',
    System.Follows (fun _ => True) 0 (.start (.memory .empty) default fun _ => .standard) x es deeds ∧
      x.MovedInto (fun _ => True) (.start (.memory .empty) default fun _ => .standard) es 1 .processing 0 ∧
      System.Follows (fun _ => True) 0 (.start (.memory .empty) default fun _ => .standard) y es' deeds' ∧
      noticeCount .processing deeds' = 1 := by
  have few (es : List Event) (hes : (moves es).length = 1) (id : Int) : (moveCount id es : Int) ≤ Sql.mostInteger := by
    have hle := moveCount_le id es
    have hmost : (1 : Int) ≤ Sql.mostInteger := by decide
    omega
  have hstart : System.Follows (fun _ => True) 0 (.start (.memory .empty) default fun _ => .standard) _ [] [] := .start
  have tells : ∀ c ∈ confirmedClaim ++ [.act 0 1 .go], (fun _ => True) c := fun _ _ => trivial
  have told : ∀ c ∈ confirmedClaim ++ [.act 0 1 .go, .act 0 1 .go], (fun _ => True) c := fun _ _ => trivial
  obtain ⟨deeds, htelling⟩ := hstart.exists_run tells rfl
  obtain ⟨deeds', htold⟩ := hstart.exists_run told rfl
  obtain ⟨htrue, -, -⟩ := htelling.tells_what_happened (.inl rfl) (few _ rfl)
  obtain ⟨-, hcounted, -⟩ := htold.tells_what_happened (.inl rfl) (few _ rfl)
  obtain ⟨u, version, hlast, -, hexpects, hmoved⟩ := htrue 0 1 _ _ _ rfl
  cases hlast
  cases hexpects
  refine ⟨_, _, _, _, deeds, deeds', htelling, hmoved, htold, (hcounted fun i => ?_).1⟩
  match i with
  | 0 => rfl
  | 1 => rfl
  | n + 2 => rfl

end Interleaving

end Backlog

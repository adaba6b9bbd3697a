import Backlog.Proofs.Dispatch.Deed
import Backlog.Proofs.Store.Keeping

/-!
# A dispatcher among others

A dispatcher works between a store and a queue, and its token does not fire.  A call of the store is answered by it, or
fails for whatever reason.  Others make requests of the store, as far as they may, and take tasks out of the queue, but
nobody else puts any in.

Key facts: the deeds of the dispatcher are told by its run, and a run can be taken apart where they are
(`Station.Reaches.of_append`, `Station.Reaches.of_cons`).  What others do between two of them touches neither the
dispatcher nor a task that they may not move (`Station.Reaches.untouched`).
-/

namespace Backlog.Dispatch

open Store

/-! ### Deeds of the dispatcher -/

namespace Deed

/-- Whether a deed is a call of the store that has been answered or has failed. -/
def isAsk : Deed → Bool
  | ask _ _ => true
  | _ => false

/-- Whether a deed is a call of the store that has failed. -/
def isFailure : Deed → Bool
  | ask _ (.error _) => true
  | _ => false

/-- Whether a deed begins a tick. -/
def isWake : Deed → Bool
  | wake _ => true
  | _ => false

/-- Whether a deed is a failed listing of the tasks in processing. -/
def isFailedListing : Deed → Bool
  | ask (.listByStatus .processing) (.error _) => true
  | _ => false

/-- Whether a deed is a listing of the tasks in processing. -/
def isListing : Deed → Bool
  | ask (.listByStatus .processing) (.ok _) => true
  | _ => false

/-- The task that a deed puts into the channel. -/
def sent? : Deed → Option Task
  | send task => some task
  | _ => none

theorem sent?_of_isAside {deed : Deed} (h : deed.isAside = true) : deed.sent? = none := by
  cases deed <;> first
    | rfl
    | cases h

theorem filterMap_sent? (deed : Deed) : [deed].filterMap sent? = deed.sent?.toList := by
  cases hdeed : deed.sent? <;> simp [hdeed]

/-- Whether a deed is one of those who take tasks out of the queue. -/
def isTaking : Deed → Bool
  | untrack _ _ => true
  | queueUp => true
  | take _ => true
  | turnAway => true
  | _ => false

theorem isTaking_of_isReceipt {deed : Deed} (h : deed.isReceipt = true) : deed.isTaking = true := by
  cases deed <;> first
    | rfl
    | cases h

/-- How a deed of the dispatcher meets the store and the queue, and what becomes of these. -/
inductive Met (b : Backend) (q : Queue) : Deed → Backend → Queue → Prop where
  | answered {r : Request} {result : Except StoreError r.Answer} (wall : Timestamp)
      (answer : (b.perform wall r).1 = .answered result) : Met b q (.ask r result) (b.perform wall r).2 q
  | failed {r : Request} (e : StoreError) : Met b q (.ask r (.error e)) b q
  | acted {deed : Deed} (noAsk : deed.isAsk = false) (fits : deed.Fits 0 false q) :
    Met b q deed b (deed.onQueue 0 q)

variable {b b' : Backend} {q q' : Queue} {deed : Deed} {fixed : Prop} {t : Task}

theorem Met.ordered (h : Met b q deed b' q') (hb : b.Ordered) : b'.Ordered := by
  cases h with
  | answered wall answer => exact hb.perform wall _
  | failed e => exact hb
  | acted noAsk fits => exact hb

/-- A task is kept, but for its text, by a deed that does not ask for it to be moved or removed. -/
theorem Met.retains (h : Met b q deed b' q') (hb : b.Ordered) (ht : b.Retains fixed t)
    (spares : ∀ r result, deed = .ask r result → r.Spares fixed t.id) : b'.Retains fixed t := by
  cases h with
  | answered wall answer => exact ht.perform hb wall (spares _ _ rfl)
  | failed e => exact ht
  | acted noAsk fits => exact ht

theorem Met.queue_of_isAside (h : Met b q deed b' q') (aside : deed.isAside = true) : q' = q := by
  cases h with
  | answered wall answer => rfl
  | failed e => rfl
  | acted noAsk fits => exact onQueue_of_isAside aside 0 q

/-- An answer that is no failure comes from the store. -/
theorem Met.answer {r : Request} {result : Except StoreError r.Answer} (h : Met b q (.ask r result) b' q')
    (calm : (Deed.ask r result).isFailure = false) :
    ∃ wall a, result = .ok a ∧ (b.perform wall r).1 = .ok a ∧ b' = (b.perform wall r).2 ∧ q' = q := by
  cases h with
  | answered wall answer =>
    cases result with
    | error e => cases calm
    | ok a => exact ⟨wall, a, rfl, answer, rfl, rfl⟩
  | failed e => cases calm
  | acted noAsk fits => cases noAsk

/-- A deed that asks nothing of the store is done as the queue and the token allow. -/
theorem Met.deeds (h : Met b q deed b' q') (noAsk : deed.isAsk = false) :
    deed.Fits 0 false q ∧ b = b' ∧ deed.onQueue 0 q = q' := by
  cases h with
  | answered wall answer => cases noAsk
  | failed e => cases noAsk
  | acted noAsk fits => exact ⟨fits, rfl, rfl⟩

/-- A listing leaves the store and the queue as they are, even if it fails. -/
theorem Met.of_listing {a : Status} {result : Except StoreError (List Task)}
    (h : Met b q (.ask (.listByStatus a) result) b' q') : b' = b ∧ q' = q := by
  cases h with
  | answered wall answer => exact ⟨congrArg Prod.snd (b.perform_of_not_isWrite rfl wall wall), rfl⟩
  | failed e => exact ⟨rfl, rfl⟩
  | acted noAsk fits => cases noAsk

/-- A listing that has not failed was answered by the store, which it leaves as it is. -/
theorem Met.listed {a : Status} {result : Except StoreError (List Task)}
    (h : Met b q (.ask (.listByStatus a) result) b' q') (calm : (Deed.ask (.listByStatus a) result).isFailure = false) :
    b' = b ∧ q' = q ∧ ∃ wall ts, result = .ok ts ∧ (b.perform wall (.listByStatus a)).1 = .ok ts := by
  obtain ⟨hstore, hqueue⟩ := h.of_listing
  obtain ⟨wall, ts, rfl, answer, -, -⟩ := h.answer calm
  exact ⟨hstore, hqueue, wall, ts, rfl, answer⟩

end Deed

/-! ### The station -/

/-- A dispatcher with the store and the queue between which it works. -/
structure Station where
  store : Backend
  queue : Queue
  dispatcher : Dispatcher

namespace Station

/-- What may happen next, and the deed by which the dispatcher has done it: the dispatcher does something, somebody
makes a request of the store, or somebody with a ticket takes something out of the queue. -/
inductive Moves (s : Settings) (others : Request → Prop) (x : Station) : Option Deed → Station → Prop where
  | own {deed : Deed} {d : Dispatcher} {b : Backend} {q : Queue}
      (does : (x.dispatcher.next s).Does x.dispatcher deed d) (met : deed.Met x.store x.queue b q) :
    Moves s others x (some deed) ⟨b, q, d⟩
  | requested (r : Request) (wall : Timestamp) (may : others r) :
    Moves s others x none { x with store := (x.store.perform wall r).2 }
  | visited {deed : Deed} {t : Ticket} {cancelled : Bool} (guest : t ≠ 0) (taking : deed.isTaking = true)
      (fits : deed.Fits t cancelled x.queue) :
    Moves s others x none { x with queue := deed.onQueue t x.queue }

/-- What can come of a station, and the deeds of the dispatcher on the way there. -/
inductive Reaches (s : Settings) (others : Request → Prop) (x₀ : Station) : Station → List Deed → Prop where
  | start : Reaches s others x₀ x₀ []
  | step {x y : Station} {deeds : List Deed} {o : Option Deed} (h : Reaches s others x₀ x deeds)
      (m : x.Moves s others o y) : Reaches s others x₀ y (deeds ++ o.toList)

variable {s : Settings} {others : Request → Prop} {x y z : Station} {deeds more : List Deed} {deed : Deed}

theorem Reaches.trans (h : x.Reaches s others y deeds) (h' : y.Reaches s others z more) :
    x.Reaches s others z (deeds ++ more) := by
  induction h' with
  | start => rwa [List.append_nil]
  | step _ m ih =>
    rw [← List.append_assoc]
    exact ih.step m

/-- A run can be taken apart between two deeds. -/
theorem Reaches.of_append (h : x.Reaches s others z (deeds ++ more)) :
    ∃ y, x.Reaches s others y deeds ∧ y.Reaches s others z more := by
  generalize hall : deeds ++ more = all at h
  induction h generalizing more with
  | start =>
    obtain ⟨rfl, rfl⟩ := List.append_eq_nil_iff.1 hall
    exact ⟨x, .start, .start⟩
  | @step y z all o hbefore m ih =>
    cases o with
    | none =>
      rw [show (none : Option Deed).toList = [] from rfl, List.append_nil] at hall
      obtain ⟨w, hw, hy⟩ := ih hall
      refine ⟨w, hw, ?_⟩
      have hstep := hy.step m
      rwa [show (none : Option Deed).toList = [] from rfl, List.append_nil] at hstep
    | some deed =>
      rcases List.eq_nil_or_concat more with rfl | ⟨init, last, rfl⟩
      · rw [List.append_nil] at hall
        subst hall
        exact ⟨z, hbefore.step m, .start⟩
      · rw [List.concat_eq_append, ← List.append_assoc] at hall
        obtain ⟨hinit, hlast⟩ := List.append_inj' hall rfl
        obtain ⟨w, hw, hy⟩ := ih hinit
        rw [List.concat_eq_append, hlast]
        exact ⟨w, hw, hy.step m⟩

/-- The first deed of a run is done in some state that others have led to. -/
theorem Reaches.of_cons (h : x.Reaches s others z (deed :: deeds)) :
    ∃ y y', x.Reaches s others y [] ∧ y.Moves s others (some deed) y' ∧ y'.Reaches s others z deeds := by
  have hparts : x.Reaches s others z ([deed] ++ deeds) := h
  obtain ⟨w, hw, hrest⟩ := hparts.of_append
  generalize hone : [deed] = one at hw
  induction hw with
  | start => cases hone
  | @step y w before o hbefore m ih =>
    cases o with
    | none =>
      rw [show (none : Option Deed).toList = [] from rfl, List.append_nil] at hone
      have hlonger := (Reaches.start.step m).trans hrest
      exact ih hlonger hone
    | some last =>
      obtain ⟨hinit, hlast⟩ := List.append_inj' (show [] ++ [deed] = before ++ [last] from hone) rfl
      cases hinit
      cases hlast
      exact ⟨y, w, hbefore, m, hrest⟩

/-! ### What others do -/

/-- Nothing that others have done concerns the dispatcher or the task with an identifier, but for its text if that is
not fixed, and they have put nothing into the register. -/
structure Untouched (fixed : Prop) (id : Int) (x y : Station) : Prop where
  dispatcher : y.dispatcher = x.dispatcher
  ordered : x.store.Ordered → y.store.Ordered
  retains : x.store.Ordered → ∀ t : Task, t.id = id → x.store.Retains fixed t → y.store.Retains fixed t
  untracked : ∀ j, x.queue.contains j = false → y.queue.contains j = false
  empty : x.queue.entries = [] → y.queue.entries = []

variable {fixed : Prop} {id : Int}

theorem Moves.untouched (m : x.Moves s others none y) (may : ∀ r, others r → r.Spares fixed id) :
    x.Untouched fixed id y := by
  cases m with
  | requested r wall hr =>
    refine ⟨rfl, fun hx => hx.perform wall r, fun hx t ht hkept => hkept.perform hx wall ?_, fun _ hx => hx,
      fun hx => hx⟩
    rw [ht]
    exact may r hr
  | @visited deed ticket cancelled guest taking fits =>
    refine ⟨rfl, fun hx => hx, fun hx t ht hkept => hkept, fun j hx => Deed.contains_onQueue hx _ ?_, fun hx => ?_⟩
    · rintro now task rfl
      cases taking
    · cases deed with
      | untrack j tracked =>
        show x.queue.entries.filter _ = []
        rw [hx]
        rfl
      | track now task => cases taking
      | _ => exact hx

theorem Reaches.untouched (h : x.Reaches s others y []) (may : ∀ r, others r → r.Spares fixed id) :
    x.Untouched fixed id y := by
  generalize hnone : [] = deeds at h
  induction h with
  | start => exact ⟨rfl, fun h => h, fun _ _ _ h => h, fun _ h => h, fun h => h⟩
  | step _ m ih =>
    obtain ⟨hdeeds, ho⟩ := List.append_eq_nil_iff.1 hnone.symm
    obtain rfl := Option.toList_eq_nil_iff.1 ho
    have hbefore := ih hdeeds.symm
    have hlast := m.untouched may
    exact ⟨hlast.dispatcher.trans hbefore.dispatcher, fun hx => hlast.ordered (hbefore.ordered hx),
      fun hx t ht hkept => hlast.retains (hbefore.ordered hx) t ht (hbefore.retains hx t ht hkept),
      fun j hx => hlast.untracked j (hbefore.untracked j hx), fun hx => hlast.empty (hbefore.empty hx)⟩

end Station

end Backlog.Dispatch

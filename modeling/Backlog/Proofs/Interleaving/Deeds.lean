import Backlog.Proofs.Dispatch.Deed
import Backlog.Proofs.Interleaving.System

/-!
# Deeds in a system

A job that acts in a system does one deed.  The deed is in keeping with the queue and the token of the runtime, and what
comes of it is told by the deed: the queue is as the deed leaves it, and the store is as it was unless the deed is a
call.

Key facts: whoever acts has done a deed (`System.did_of_serve`), and whatever happens in a system is a deed, or somebody
begins a job, or a request reaches the store, or a token fires, or the clock is set (`System.occurs_of_step`).
-/

namespace Backlog

open Dispatch Simulation Store

/-- Whether a deed takes a task out of the channel. -/
def Dispatch.Deed.isTake : Deed → Bool
  | take _ => true
  | _ => false

/-- Whether a deed has to do with the store. -/
def Dispatch.Deed.isCall : Deed → Bool
  | ask _ _ => true
  | drop _ => true
  | _ => false

/-- Whatever is asked of the store, or given up, is what the step asks for. -/
theorem Dispatch.Step.Does.asks {σ : Type} {st : Step σ} {a b : σ} {deed : Deed} {R : Request → Prop}
    (h : st.Does a deed b) (hasks : st.Asks R) {r : Request}
    (hdeed : (∃ result, deed = .ask r result) ∨ deed = .drop r) : R r := by
  rcases hdeed with ⟨result, rfl⟩ | rfl
  · cases h
    exact hasks
  · cases h
    exact hasks

namespace Interleaving.System

/-- What becomes of the store by a deed, which requests drift on, and what is told of it. -/
inductive Stored (x : System) (a : Author) : Deed → System → List Event → Prop where
  | answered {r result y} (answer : (x.store.perform x.wall r).1 = .answered result)
      (store : y.store = (x.store.perform x.wall r).2) (drifting : y.drifting = x.drifting) :
    Stored x a (.ask r result) y (landing x.store x.wall a r ++ attempt a r result)
  | failed {r e y} (passing : e.isTransient = true) (store : y.store = x.store)
      (drifting : y.drifting = x.drifting ++ [(a, r)]) : Stored x a (.ask r (.error e)) y (attempt a r (.error e))
  | refused {r e y} (superseded : e.isSuperseded = true) (store : y.store = x.store)
      (drifting : y.drifting = x.drifting) : Stored x a (.ask r (.error e)) y (attempt a r (.error e))
  | dropped {r y} (store : y.store = x.store) (drifting : y.drifting = x.drifting ++ [(a, r)]) :
    Stored x a (.drop r) y []
  | aside {deed y} (noCall : deed.isCall = false) (store : y.store = x.store) (drifting : y.drifting = x.drifting) :
    Stored x a deed y []

/-- A job in a seat has done a deed: what has become of its runtime, of the store and of its seat. -/
structure Did (x : System) (p i : Nat) (s : Seat) (deed : Deed) (s' : Seat) (y : System) (es : List Event) : Prop where
  fits : deed.Fits i (x.runtimes p).cancelled (x.runtimes p).queue
  queue : (y.runtimes p).queue = deed.onQueue i (x.runtimes p).queue
  others : ∀ q, q ≠ p → y.runtimes q = x.runtimes q
  settings : (y.runtimes p).settings = (x.runtimes p).settings
  cancelled : (y.runtimes p).cancelled = (x.runtimes p).cancelled
  stored : Stored x ⟨p, i, s.round⟩ deed y es
  wall : y.wall = x.wall
  seats : y.seats = x.seats
  round : s'.round = if deed.isTake then s.round + 1 else s.round

variable {x y : System} {p i : Nat} {s s' : Seat} {how : How} {st : Step Job} {es : List Event} {deed : Deed}

/-- Only an update of a status is told of, and under the name of whoever has made it. -/
theorem mem_landing {b : Backend} {wall : Timestamp} {a a' : Author} {r : Request} {id version : Int}
    (h : Event.landed a' id version ∈ landing b wall a r) : a' = a ∧ ∃ u, r = .updateStatus id u := by
  cases r with
  | updateStatus j u =>
    simp only [landing] at h
    split at h
    · obtain ⟨v, -, hv⟩ := List.mem_map.1 h
      cases hv
      exact ⟨rfl, u, rfl⟩
    · cases h
  | _ => cases h

/-- An update that is told of was made by a call. -/
theorem Stored.of_landed {a a' : Author} {id version : Int} (h : Stored x a deed y es)
    (he : Event.landed a' id version ∈ es) :
    ∃ r result, deed = .ask r result ∧ .landed a' id version ∈ landing x.store x.wall a r := by
  have attempted {r : Request} {result : Except StoreError r.Answer} :
      Event.landed a' id version ∉ attempt a r result := by
    intro hin
    cases r <;> simp [attempt] at hin
  cases h with
  | answered answer store drifting =>
    rcases List.mem_append.1 he with he | he
    · exact ⟨_, _, rfl, he⟩
    · exact absurd he attempted
  | failed passing store drifting => exact absurd he attempted
  | refused superseded store drifting => exact absurd he attempted
  | dropped store drifting => cases he
  | aside noCall store drifting => cases he

/-- What drifts after a deed drifted before, or is the request of a call that has failed or was given up. -/
theorem Stored.of_drifting {a : Author} (h : Stored x a deed y es) {c : Author × Request} (hc : c ∈ y.drifting) :
    c ∈ x.drifting ∨ c.1 = a ∧ ((∃ e, deed = .ask c.2 (.error e)) ∨ deed = .drop c.2) := by
  cases h with
  | failed passing store drifting =>
    rw [drifting, List.mem_append, List.mem_singleton] at hc
    rcases hc with hc | rfl
    · exact .inl hc
    · exact .inr ⟨rfl, .inl ⟨_, rfl⟩⟩
  | dropped store drifting =>
    rw [drifting, List.mem_append, List.mem_singleton] at hc
    rcases hc with hc | rfl
    · exact .inl hc
    · exact .inr ⟨rfl, .inr rfl⟩
  | answered answer store drifting => exact .inl (drifting ▸ hc)
  | refused superseded store drifting => exact .inl (drifting ▸ hc)
  | aside noCall store drifting => exact .inl (drifting ▸ hc)

private theorem did_aside {job : Job} (fits : deed.Fits i (x.runtimes p).cancelled (x.runtimes p).queue)
    (aside : deed.isAside = true) (noCall : deed.isCall = false) : Did x p i s deed ⟨s.round, job⟩ x [] where
  fits
  queue := (deed.onQueue_of_isAside aside i _).symm
  others _ _ := rfl
  settings := rfl
  cancelled := rfl
  stored := .aside noCall rfl rfl
  wall := rfl
  seats := rfl
  round := by
    have htake : deed.isTake = false := by
      cases deed <;> first
        | rfl
        | cases aside
    rw [htake]
    rfl

/-- Whoever has changed the runtime, and nothing else, has left the queue as the deed says. -/
private theorem did_modify {f : Runtime → Runtime} (fits : deed.Fits i (x.runtimes p).cancelled (x.runtimes p).queue)
    (queue : (f (x.runtimes p)).queue = deed.onQueue i (x.runtimes p).queue)
    (settings : (f (x.runtimes p)).settings = (x.runtimes p).settings)
    (cancelled : (f (x.runtimes p)).cancelled = (x.runtimes p).cancelled) (noCall : deed.isCall = false)
    (round : s'.round = if deed.isTake then s.round + 1 else s.round) : Did x p i s deed s' (x.modify p f) [] where
  fits
  queue := by
    simp only [modify, if_true]
    exact queue
  others q hq := if_neg hq
  settings := by
    simp only [modify, if_true]
    exact settings
  cancelled := by
    simp only [modify, if_true]
    exact cancelled
  stored := .aside noCall rfl rfl
  wall := rfl
  seats := rfl
  round

/-- Whoever has made a call has left the runtimes alone. -/
private theorem did_call {b : Backend} {drifting : List (Author × Request)} {job : Job}
    (fits : deed.Fits i (x.runtimes p).cancelled (x.runtimes p).queue) (isCall : deed.isCall = true)
    (stored : Stored x ⟨p, i, s.round⟩ deed { x with store := b, drifting } es) :
    Did x p i s deed ⟨s.round, job⟩ { x with store := b, drifting } es where
  fits
  queue := by cases deed <;> first | rfl | cases isCall
  others _ _ := rfl
  settings := rfl
  cancelled := rfl
  stored
  wall := rfl
  seats := rfl
  round := by cases deed <;> first | rfl | cases isCall

theorem did_of_serve (h : x.serve p i s how st = some (s', y, es)) :
    ∃ deed, st.Does s.job deed s'.job ∧ Did x p i s deed s' y es := by
  cases st with
  | stop => cases h
  | call r limit interrupted next =>
    simp only [serve] at h
    split at h
    · split at h
      · rename_i answer
        cases h
        exact ⟨_, .ask _, did_call trivial rfl (.answered answer rfl rfl)⟩
      · cases h
    · split at h
      · rename_i passing
        cases h
        exact ⟨_, .ask _, did_call trivial rfl (.failed passing rfl rfl)⟩
      · cases h
    · split at h
      · split at h
        · rename_i superseded
          cases h
          exact ⟨_, .ask _, did_call trivial rfl (.refused superseded.1 rfl rfl)⟩
        · cases h
      · cases h
    · split at h
      · rename_i cancelled
        cases h
        exact ⟨_, .drop rfl, did_call cancelled rfl (.dropped rfl rfl)⟩
      · cases h
    · cases h
  | isTracked id next =>
    cases h
    exact ⟨_, .look _, did_aside rfl rfl rfl⟩
  | track task next =>
    cases h
    exact ⟨_, .track x.wall, did_modify trivial rfl rfl rfl rfl rfl⟩
  | untrack id next =>
    cases h
    exact ⟨_, .untrack _, did_modify rfl rfl rfl rfl rfl rfl⟩
  | send task interrupted next =>
    simp only [serve] at h
    split at h
    · split at h
      · rename_i granted
        cases h
        exact ⟨_, .send, did_modify granted rfl rfl rfl rfl rfl⟩
      · rename_i granted
        split at h
        · cases h
        · rename_i waits
          cases h
          refine ⟨_, .join, did_modify ⟨by simpa using granted, by simpa using waits⟩ rfl rfl rfl rfl rfl⟩
    · split at h
      · rename_i cancelled
        cases h
        exact ⟨_, .leave rfl, did_modify cancelled rfl rfl rfl rfl rfl⟩
      · cases h
    · cases h
  | receive interrupted next =>
    simp only [serve] at h
    split at h
    · split at h
      · rename_i task channel htake
        cases h
        refine ⟨_, .take task, did_modify ?_ ?_ rfl rfl rfl rfl⟩
        · show ((x.runtimes p).queue.channel.takeFor i).map Prod.fst = some task
          rw [htake]
          rfl
        · simp only [Deed.onQueue, htake]
          rfl
      · split at h
        · cases h
        · rename_i waits
          cases h
          exact ⟨_, .queueUp, did_modify (by simpa [Deed.Fits] using waits) rfl rfl rfl rfl rfl⟩
    · split at h
      · rename_i cancelled
        cases h
        exact ⟨_, .turnAway rfl, did_modify cancelled rfl rfl rfl rfl rfl⟩
      · cases h
    · cases h
  | sleep span interrupted next =>
    simp only [serve] at h
    split at h
    · cases h
      exact ⟨_, .rest, did_aside trivial rfl rfl⟩
    · split at h
      · rename_i cancelled
        cases h
        exact ⟨_, .rouse rfl, did_aside cancelled rfl rfl⟩
      · cases h
    · cases h
  | sleepUntil due interrupted next =>
    simp only [serve] at h
    split at h
    · cases h
      exact ⟨_, .wake _, did_aside trivial rfl rfl⟩
    · split at h
      · rename_i cancelled
        cases h
        exact ⟨_, .rise rfl, did_aside cancelled rfl rfl⟩
      · cases h
    · cases h
  | readClock next =>
    simp only [serve] at h
    split at h <;> cases h
    exact ⟨_, .readClock _, did_aside trivial rfl rfl⟩
  | readWallClock next =>
    cases h
    exact ⟨_, .readWallClock _, did_aside trivial rfl rfl⟩
  | isCancelled next =>
    cases h
    exact ⟨_, .see _, did_aside rfl rfl rfl⟩
  | draw least most next =>
    simp only [serve] at h
    split at h
    · split at h <;> cases h
      exact ⟨_, .draw _, did_aside trivial rfl rfl⟩
    · cases h
  | record count next =>
    cases h
    exact ⟨_, .record, did_modify trivial rfl rfl rfl rfl rfl⟩
  | notify userId event next =>
    cases h
    exact ⟨_, .notify, did_aside trivial rfl rfl⟩
  | showRunning running next =>
    cases h
    exact ⟨_, .showRunning, did_modify trivial rfl rfl rfl rfl rfl⟩

/-- What comes of a choice, where whoever acts does a deed. -/
inductive Occurs (x : System) : Choice → System → List Event → Prop where
  | spawned {p i : Nat} {round reply job} (free : x.seats p i = ⟨round, .ended reply⟩)
      (begins : isBeginning job = true) :
    Occurs x (.spawn p i job) (x.setSeat p i ⟨round + 1, job⟩) []
  | acted {p i : Nat} {how : How} {deed : Deed} {s' : Seat} {y : System} {es : List Event}
      (does : ((x.seats p i).job.next (x.runtimes p).settings).Does (x.seats p i).job deed s'.job)
      (did : Did x p i (x.seats p i) deed s' y es) :
    Occurs x (.act p i how) (y.setSeat p i s')
      (es ++ (credit? s'.job).toList.map fun c => .credited ⟨p, i, s'.round⟩ c.1 c.2)
  | landed {k a r} (drifts : x.drifting[k]? = some (a, r)) :
    Occurs x (.land k) { x with store := (x.store.perform x.wall r).2, drifting := x.drifting.eraseIdx k }
      (landing x.store x.wall a r)
  | cancelled {p : Nat} : Occurs x (.cancel p) (x.modify p fun r => { r with cancelled := true }) []
  | timed {wall} : Occurs x (.setWall wall) { x with wall } []

theorem occurs_of_step {c : Choice} (h : x.step c = some (y, es)) : Occurs x c y es := by
  cases c with
  | act p i how =>
    simp only [step, act, Option.map_eq_some_iff] at h
    obtain ⟨⟨s', z, es'⟩, hserve, hdone⟩ := h
    cases hdone
    obtain ⟨deed, does, did⟩ := did_of_serve hserve
    exact .acted does did
  | spawn p i job =>
    cases happens_of_step h with
    | spawned free begins => exact .spawned free begins
  | land k =>
    cases happens_of_step h with
    | landed drifts => exact .landed drifts
  | cancel p =>
    cases happens_of_step h
    exact .cancelled
  | setWall wall =>
    cases happens_of_step h
    exact .timed

/-- The settings of a runtime stay as they are, and a token that has fired stays so. -/
theorem Occurs.runtime {c : Choice} (h : Occurs x c y es) (p : Nat) :
    (y.runtimes p).settings = (x.runtimes p).settings ∧
      ((x.runtimes p).cancelled = true → (y.runtimes p).cancelled = true) := by
  cases h with
  | @acted q i how deed s' z es₁ does did =>
    show (z.runtimes p).settings = _ ∧ (_ → (z.runtimes p).cancelled = true)
    by_cases hq : p = q
    · subst hq
      exact ⟨did.settings, fun fired => did.cancelled.trans fired⟩
    · rw [did.others p hq]
      exact ⟨rfl, id⟩
  | cancelled =>
    simp only [modify]
    split
    · exact ⟨rfl, fun _ => rfl⟩
    · exact ⟨rfl, id⟩
  | _ => exact ⟨rfl, id⟩

/-- Whoever sits in a seat afterwards sat there before, has just begun where a job had ended, or has acted. -/
theorem Occurs.seat_cases {c : Choice} (h : Occurs x c y es) (p i : Nat) :
    y.seats p i = x.seats p i ∨
      (∃ reply job, c = .spawn p i job ∧ isBeginning job = true ∧ (x.seats p i).job = .ended reply ∧
        (y.seats p i).job = job) ∨
      ∃ how deed s' z es₁, c = .act p i how ∧ y = z.setSeat p i s' ∧ y.seats p i = s' ∧
        ((x.seats p i).job.next (x.runtimes p).settings).Does (x.seats p i).job deed s'.job ∧
        Did x p i (x.seats p i) deed s' z es₁ ∧
        es = es₁ ++ (credit? s'.job).toList.map fun c => .credited ⟨p, i, s'.round⟩ c.1 c.2 := by
  cases h with
  | @spawned q j round reply job free begins =>
    by_cases hseat : p = q ∧ i = j
    · obtain ⟨rfl, rfl⟩ := hseat
      refine .inr (.inl ⟨reply, job, rfl, begins, congrArg Seat.job free, ?_⟩)
      rw [seats_setSeat, if_pos ⟨rfl, rfl⟩]
    · exact .inl (by rw [seats_setSeat, if_neg hseat])
  | @acted q j how deed s' z es₁ does did =>
    by_cases hseat : p = q ∧ i = j
    · obtain ⟨rfl, rfl⟩ := hseat
      refine .inr (.inr ⟨how, deed, s', z, es₁, rfl, rfl, ?_, does, did, rfl⟩)
      rw [seats_setSeat, if_pos ⟨rfl, rfl⟩]
    · exact .inl (by rw [seats_setSeat, if_neg hseat, did.seats])
  | _ => exact .inl rfl

/-- A job stays as it is until it acts. -/
theorem Occurs.seat {c : Choice} (h : Occurs x c y es) (busy : ∀ reply, (x.seats p i).job ≠ .ended reply)
    (apart : ∀ how, c ≠ .act p i how) : y.seats p i = x.seats p i := by
  rcases h.seat_cases p i with hsame | ⟨reply, job, -, -, hended, -⟩ | ⟨how, deed, s', z, es₁, hc, -⟩
  · exact hsame
  · exact absurd hended (busy reply)
  · exact absurd hc (apart how)

/-! ### Runs told by deeds -/

/-- What follows in a system by choices of a kind, the events, and what is done in the seats of a runtime. -/
inductive Follows (allowed : Choice → Prop) (p : Nat) (x₀ : System) :
    System → List Event → List (Nat × Deed) → Prop where
  | start : Follows allowed p x₀ x₀ [] []
  | acted {x y : System} {es es' : List Event} {deeds : List (Nat × Deed)} {i : Nat} {how : How} {deed : Deed}
      {s' : Seat} (h : Follows allowed p x₀ x es deeds) (ok : allowed (.act p i how))
      (step : x.step (.act p i how) =
        some (y.setSeat p i s', es' ++ (credit? s'.job).toList.map fun c => .credited ⟨p, i, s'.round⟩ c.1 c.2))
      (does : ((x.seats p i).job.next (x.runtimes p).settings).Does (x.seats p i).job deed s'.job)
      (did : Did x p i (x.seats p i) deed s' y es') :
      Follows allowed p x₀ (y.setSeat p i s')
        (es ++ (es' ++ (credit? s'.job).toList.map fun c => .credited ⟨p, i, s'.round⟩ c.1 c.2)) (deeds ++ [(i, deed)])
  | other {x y : System} {es es' : List Event} {deeds : List (Nat × Deed)} {c : Choice}
      (h : Follows allowed p x₀ x es deeds) (ok : allowed c) (apart : ∀ i how, c ≠ .act p i how)
      (step : x.step c = some (y, es')) : Follows allowed p x₀ y (es ++ es') deeds

/-- What has been done in one of the seats. -/
def deedsIn (k : Nat) (deeds : List (Nat × Deed)) : List Deed := (deeds.filter fun e => e.1 = k).map Prod.snd

namespace Follows

variable {allowed : Choice → Prop} {x₀ : System} {deeds : List (Nat × Deed)}

/-- Whatever happens is told by a deed, or leaves the seats of the runtime alone. -/
theorem exists_step (h : Follows allowed p x₀ x es deeds) {c : Choice} (ok : allowed c) {es' : List Event}
    (step : x.step c = some (y, es')) : ∃ more, Follows allowed p x₀ y (es ++ es') (deeds ++ more) := by
  by_cases hacts : ∃ i how, c = .act p i how
  · obtain ⟨i, how, rfl⟩ := hacts
    cases occurs_of_step step with
    | acted does did => exact ⟨_, h.acted ok step does did⟩
  · refine ⟨[], ?_⟩
    rw [List.append_nil]
    exact h.other ok (fun i how hc => hacts ⟨i, how, hc⟩) step

/-- Many choices of a kind lead to something that follows. -/
theorem exists_run (h : Follows allowed p x₀ x es deeds) {cs : List Choice} (ok : ∀ c ∈ cs, allowed c)
    {es' : List Event} (hrun : x.run cs = some (y, es')) : ∃ deeds', Follows allowed p x₀ y (es ++ es') deeds' := by
  refine run_induction (P := fun x es => ∃ deeds, Follows allowed p x₀ x es deeds) ⟨deeds, h⟩ ?_ hrun
  rintro c hc x y es es' ⟨deeds, hfollows⟩ hstep
  obtain ⟨more, hmore⟩ := hfollows.exists_step (ok c hc) hstep
  exact ⟨_, hmore⟩

theorem reaches (h : Follows allowed p x₀ x es deeds) : Reaches allowed x₀ x es := by
  induction h with
  | start => exact .start
  | acted _ ok step _ _ ih => exact ih.step ok step
  | other _ ok _ step ih => exact ih.step ok step

theorem runtime (h : Follows allowed p x₀ x es deeds) :
    (x.runtimes p).settings = (x₀.runtimes p).settings ∧
      ((x₀.runtimes p).cancelled = true → (x.runtimes p).cancelled = true) := by
  have onward {x y : System} {es : List Event} {c : Choice} (step : x.step c = some (y, es))
      (ih : (x.runtimes p).settings = (x₀.runtimes p).settings ∧
        ((x₀.runtimes p).cancelled = true → (x.runtimes p).cancelled = true)) :
      (y.runtimes p).settings = (x₀.runtimes p).settings ∧
        ((x₀.runtimes p).cancelled = true → (y.runtimes p).cancelled = true) := by
    obtain ⟨hsettings, hcancelled⟩ := (occurs_of_step step).runtime p
    exact ⟨hsettings.trans ih.1, fun fired => hcancelled (ih.2 fired)⟩
  induction h with
  | start => exact ⟨rfl, id⟩
  | acted _ _ step _ _ ih => exact onward step ih
  | other _ _ _ step ih => exact onward step ih

end Follows

end Interleaving.System

end Backlog

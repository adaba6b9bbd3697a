import Backlog.Proofs.Dispatch.Crew
import Backlog.Proofs.Interleaving.Deeds

/-!
# The line at a channel

Whoever waits for a task of a runtime stands in the line of its channel: the idle workers, and callers who take one task
for themselves.

Key facts: only they have to do with that line (`isReceipt_of_does`), so everybody in it still waits for a task, and
stands there once (`System.InLine`, kept by whatever happens).
-/

namespace Backlog

open Dispatch Simulation Store

/-! ### The line of receivers -/

namespace Channel

theorem receivers_join (c : Channel) (t : Ticket) : (c.join t).receivers = c.receivers := by
  unfold join
  split <;> rfl

theorem receivers_leave (c : Channel) (t : Ticket) : (c.leave t).receivers = c.receivers := by
  unfold leave
  split
  · exact receivers_passOn _
  · rfl

/-- Whoever takes a task was the first in line, and leaves it. -/
theorem receivers_of_takeFor {c c' : Channel} {t : Ticket} {task : Task} (h : c.takeFor t = some (task, c')) :
    c.receivers = t :: c'.receivers := by
  unfold takeFor at h
  split at h
  · rename_i hfirst
    unfold take at h
    split at h
    · cases h
    · cases h
      obtain ⟨others, hothers⟩ := List.head?_eq_some_iff.1 hfirst
      rw [receivers_passOn, hothers]
      rfl
  · cases h

theorem exists_takeFor {c : Channel} {t : Ticket} {task : Task} {rest : List Task} (first : c.receivers.head? = some t)
    (items : c.items = task :: rest) : ∃ c', c.takeFor t = some (task, c') := by
  unfold takeFor
  rw [if_pos first]
  unfold take
  dsimp only
  rw [items]
  exact ⟨_, rfl⟩

end Channel

namespace Dispatch.Deed

theorem receivers_onQueue {deed : Deed} (h : deed.isReceipt = false) (t : Ticket) (q : Queue) :
    (deed.onQueue t q).channel.receivers = q.channel.receivers := by
  cases deed with
  | join => exact Channel.receivers_join _ _
  | leave => exact Channel.receivers_leave _ _
  | queueUp => cases h
  | take task => cases h
  | turnAway => cases h
  | _ => rfl

end Dispatch.Deed

namespace Interleaving

/-! ### Who receives -/

/-- Whether a job is about to receive a task. -/
def receives : Job → Bool
  | .worker .idle => true
  | .receive => true
  | _ => false

variable {s : Settings} {deed : Deed}

private theorem isReceipt_of_isAside (h : deed.isAside = true) : deed.isReceipt = false := by
  cases deed <;> first
    | rfl
    | cases h

private theorem dispatcher_isReceipt {d d' : Dispatcher} (h : (d.next s).Does d deed d') : deed.isReceipt = false := by
  have hpasses := Dispatcher.passes_of_does h
  generalize d.chosen? = chosen, d.adding? = adding, d'.chosen? = chosen', d'.adding? = adding' at hpasses
  cases hpasses with
  | aside haside => exact isReceipt_of_isAside haside
  | _ => rfl

private theorem worker_isReceipt {w w' : Worker} (h : (w.next s).Does w deed w') :
    deed.isReceipt = receives (.worker w) := by
  have hholds := Worker.holds_of_does h
  cases w with
  | idle => cases h <;> rfl
  | stopped => cases h
  | _ =>
    generalize w'.held? = held' at hholds
    cases hholds with
    | untrack id tracked => rfl
    | aside haside => exact isReceipt_of_isAside haside

/-- The line of receivers is for those who are about to receive a task. -/
theorem isReceipt_of_does {job job' : Job} (h : (job.next s).Does job deed job') : deed.isReceipt = receives job := by
  cases job with
  | dispatcher d =>
    obtain ⟨d', hdoes, -⟩ := Step.Does.of_map h
    exact dispatcher_isReceipt hdoes
  | worker w =>
    obtain ⟨w', hdoes, -⟩ := Step.Does.of_map h
    exact worker_isReceipt hdoes
  | poll poll =>
    obtain ⟨poll', hdoes, -⟩ := Step.Does.of_map h
    refine dispatcher_isReceipt (Dispatcher.Does.of_polling .zero hdoes ?_)
    rintro result rfl
    cases hdoes
  | reclaim pass =>
    obtain ⟨pass', hdoes, -⟩ := Step.Does.of_map h
    exact isReceipt_of_isAside (Reclaim.isAside_of_does hdoes)
  | ask r limit =>
    cases h with
    | ask result => rfl
    | drop hy => cases hy
  | enqueue interruptible task stage =>
    obtain ⟨stage', hdoes, -⟩ := Step.Does.of_map h
    cases stage <;> cases hdoes <;> rfl
  | receive => cases h <;> rfl
  | pause span =>
    cases h with
    | rest => rfl
    | rouse hy => cases hy
  | ended reply => cases h

theorem eq_of_queueUp {σ : Type} {st : Step σ} {z z' : σ} (h : st.Does z .queueUp z') : z' = z := by
  cases h
  rfl

namespace System

/-- Everybody in the line at the channel of a runtime is about to receive a task, and stands there once. -/
structure InLine (p : Nat) (x : System) : Prop where
  nodup : (x.runtimes p).queue.channel.receivers.Nodup
  waits : ∀ i ∈ (x.runtimes p).queue.channel.receivers, receives (x.seats p i).job = true

variable {x y : System} {p i : Nat} {es : List Event}

theorem inLine_start (b : Backend) (wall : Timestamp) (settings : Nat → Settings) (p : Nat) :
    InLine p (start b wall settings) := ⟨List.nodup_nil, nofun⟩

private theorem InLine.acted (h : InLine p x) {s' : Seat}
    (does : ((x.seats p i).job.next (x.runtimes p).settings).Does (x.seats p i).job deed s'.job)
    (did : Did x p i (x.seats p i) deed s' y es) : InLine p (y.setSeat p i s') := by
  have hreceipt := isReceipt_of_does does
  -- those who stay in line sit elsewhere
  have others {line : List Ticket} (hsub : line ⊆ (x.runtimes p).queue.channel.receivers) (hout : i ∉ line) :
      ∀ j ∈ line, receives ((y.setSeat p i s').seats p j).job = true := by
    intro j hj
    rw [seats_setSeat, if_neg, did.seats]
    · exact h.waits j (hsub hj)
    · rintro ⟨-, rfl⟩
      exact hout hj
  have hqueue : ((y.setSeat p i s').runtimes p).queue = deed.onQueue i (x.runtimes p).queue := did.queue
  cases hdeed : deed.isReceipt with
  | false =>
    have hreceivers : ((y.setSeat p i s').runtimes p).queue.channel.receivers =
        (x.runtimes p).queue.channel.receivers := by
      rw [hqueue, Deed.receivers_onQueue hdeed]
    have hout : i ∉ (x.runtimes p).queue.channel.receivers := by
      intro hi
      rw [h.waits i hi, hdeed] at hreceipt
      cases hreceipt
    exact ⟨hreceivers ▸ h.nodup, hreceivers ▸ others (List.Subset.refl _) hout⟩
  | true =>
    cases deed with
    | queueUp =>
      have hjob : s'.job = (x.seats p i).job := eq_of_queueUp does
      have hreceivers : ((y.setSeat p i s').runtimes p).queue.channel.receivers =
          (x.runtimes p).queue.channel.receivers ++ [i] := by rw [hqueue]; rfl
      have hout : i ∉ (x.runtimes p).queue.channel.receivers := did.fits
      refine ⟨hreceivers ▸ ?_, fun j hj => ?_⟩
      · exact List.nodup_append.2 ⟨h.nodup, List.pairwise_singleton _ _, fun a ha b hb hab => hout (by
          rw [List.mem_singleton.1 hb] at hab
          exact hab ▸ ha)⟩
      · rw [hreceivers, List.mem_append, List.mem_singleton] at hj
        rcases hj with hj | rfl
        · exact others (List.Subset.refl _) hout j hj
        · rw [seats_setSeat, if_pos ⟨rfl, rfl⟩, hjob, ← hreceipt]
          rfl
    | take task =>
      obtain ⟨c, hc, hafter⟩ := Deed.Fits.exists_takeFor did.fits
      have hline := Channel.receivers_of_takeFor hc
      have hreceivers : ((y.setSeat p i s').runtimes p).queue.channel.receivers = c.receivers := by
        rw [hqueue, hafter]
      have hnodup := h.nodup
      rw [hline, List.nodup_cons] at hnodup
      refine ⟨hreceivers ▸ hnodup.2, hreceivers ▸ others (fun j hj => ?_) hnodup.1⟩
      rw [hline]
      exact List.mem_cons_of_mem _ hj
    | turnAway =>
      have hreceivers : ((y.setSeat p i s').runtimes p).queue.channel.receivers =
          (x.runtimes p).queue.channel.receivers.erase i := by rw [hqueue]; rfl
      exact ⟨hreceivers ▸ h.nodup.erase i, hreceivers ▸ others List.erase_subset h.nodup.not_mem_erase⟩
    | _ => cases hdeed

theorem InLine.step (h : InLine p x) {c : Choice} (hstep : x.step c = some (y, es)) : InLine p y := by
  -- whoever does not act in the runtime leaves the channel and everybody in the line alone
  have apart (hqueue : (y.runtimes p).queue = (x.runtimes p).queue)
      (hseats : ∀ i, receives (x.seats p i).job = true → y.seats p i = x.seats p i) : InLine p y :=
    ⟨hqueue ▸ h.nodup, fun i hi => by
      rw [hqueue] at hi
      rw [hseats i (h.waits i hi)]
      exact h.waits i hi⟩
  have hoccurs := occurs_of_step hstep
  have hseats (hother : ∀ i how, c ≠ .act p i how) (i : Nat) (hi : receives (x.seats p i).job = true) :
      y.seats p i = x.seats p i :=
    hoccurs.seat (fun reply he => by rw [he] at hi; cases hi) (hother i)
  cases hoccurs with
  | @acted q i how deed s' z es₁ does did =>
    by_cases hq : q = p
    · subst hq
      exact h.acted does did
    · exact apart (congrArg Runtime.queue (did.others p fun he => hq he.symm))
        (hseats fun j how hc => by cases hc; exact hq rfl)
  | cancelled =>
    refine apart ?_ (hseats fun j how hc => by cases hc)
    simp only [modify]
    split <;> rfl
  | spawned free begins => exact apart rfl (hseats fun j how hc => by cases hc)
  | landed drifts => exact apart rfl (hseats fun j how hc => by cases hc)
  | timed => exact apart rfl (hseats fun j how hc => by cases hc)

theorem inLine_of_reaches {b : Backend} {wall : Timestamp} {settings : Nat → Settings} {allowed : Choice → Prop}
    (h : Reaches allowed (start b wall settings) x es) (p : Nat) : InLine p x := by
  induction h with
  | start => exact inLine_start b wall settings p
  | step _ _ hstep ih => exact ih.step hstep

end System

end Interleaving

end Backlog

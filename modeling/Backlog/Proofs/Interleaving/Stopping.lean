import Backlog.Proofs.Dispatch.Winding
import Backlog.Proofs.Interleaving.Deeds
import Backlog.Proofs.Interleaving.Landing

/-!
# Dispatchers whose token has fired

The token of a runtime fires while its dispatcher is in a tick, and everybody goes on in any order.  What the dispatcher
does from then on to the end of the tick is a course of deeds that are late.

Key facts: the deeds of a dispatcher make up a course (`System.Follows.course`), so no system lets it do more than was
left to it; and it keeps to one more update and hands over nothing, whatever it is answered, exactly if no more than
that was left to it (`System.keeps_to_one_update_iff`).
-/

namespace Backlog.Interleaving

open Dispatch Simulation Store

namespace System

variable {x y : System} {p k : Nat} {es : List Event} {deeds : List (Nat × Deed)} {c : Scene} {d : Dispatcher}

theorem deedsIn_concat_self (k : Nat) (deeds : List (Nat × Deed)) (deed : Deed) :
    deedsIn k (deeds ++ [(k, deed)]) = deedsIn k deeds ++ [deed] := by
  simp [deedsIn]

theorem deedsIn_concat_of_ne {i : Nat} (hi : i ≠ k) (deeds : List (Nat × Deed)) (deed : Deed) :
    deedsIn k (deeds ++ [(i, deed)]) = deedsIn k deeds := by
  simp [deedsIn, hi]

/-- What a dispatcher does in a scene after its token has fired is a course of late deeds. -/
theorem Follows.course {allowed : Choice → Prop} (h : Follows allowed p x y es deeds)
    (fired : (x.runtimes p).cancelled = true) (hd : (x.seats p k).job = .dispatcher d)
    (meets : ∀ deed ∈ deedsIn k deeds, deed.Meets c) :
    ∃ d', (y.seats p k).job = .dispatcher d' ∧
      Course c (Dispatcher.next (x.runtimes p).settings) d (deedsIn k deeds) d' := by
  -- the token stays as it is and nobody else sits down in the seat, so only what is done there counts
  induction h with
  | start => exact ⟨d, hd, .rest d⟩
  | @acted y z es es' deeds i how deed s' h ok step does did ih =>
    have hfired := h.runtime.2 fired
    by_cases hi : i = k
    · subst hi
      rw [deedsIn_concat_self] at meets ⊢
      obtain ⟨d', hd', hcourse⟩ := ih fun deed hdeed => meets deed (List.mem_append_left _ hdeed)
      rw [hd', h.runtime.1] at does
      obtain ⟨d'', hdoes, hd''⟩ := Step.Does.of_map does
      have hlast := meets deed (List.mem_append_right _ (List.mem_singleton_self _))
      have hlate := Deed.Fits.isLate (hfired ▸ did.fits) hlast
      refine ⟨d'', ?_, hcourse.concat hdoes hlate⟩
      rw [seats_setSeat, if_pos ⟨rfl, rfl⟩, hd'']
    · rw [deedsIn_concat_of_ne hi] at meets ⊢
      obtain ⟨d', hd', hcourse⟩ := ih meets
      have hseat := (occurs_of_step step).seat (p := p) (i := k) (by simp [hd'])
        fun how hc => by cases hc; exact hi rfl
      exact ⟨d', by rw [hseat, hd'], hcourse⟩
  | @other y z es es' deeds choice h ok apart step ih =>
    obtain ⟨d', hd', hcourse⟩ := ih meets
    have hseat := (occurs_of_step step).seat (p := p) (i := k) (by simp [hd']) (apart k)
    exact ⟨d', by rw [hseat, hd'], hcourse⟩

/-- **Main theorem.**  The token of a runtime fires while its dispatcher is anywhere.  Whatever happens in the system
from then on, to the end of the tick the dispatcher updates and hands over no more than the tasks that were left to it:
those of the listing that it comes to yet and that the queue is not known to track, and the task that it is about to
retire or to send.  It keeps to one update beyond that under way and hands over nothing, whatever it is answered,
exactly if at most one of them is to be retired and none is to be handed over.  In a pass of the reclaiming alone it
makes one update at most. -/
theorem keeps_to_one_update_iff (fired : (x.runtimes p).cancelled = true) (hd : (x.seats p k).job = .dispatcher d)
    (c : Scene) :
    (∀ y es deeds, Follows (fun _ => True) p x y es deeds → (∀ deed ∈ deedsIn k deeds, deed.Meets c) →
      updatesIn (deedsIn k deeds) ≤ d.mayBegin (x.runtimes p).settings c + d.begun ∧
        (sentIn (deedsIn k deeds)).Sublist (d.maySend (x.runtimes p).settings c)) ∧
    ((∀ own d', Course c (Dispatcher.next (x.runtimes p).settings) d own d' →
      updatesIn own ≤ d.begun + 1 ∧ sentIn own = []) ↔
        d.mayBegin (x.runtimes p).settings c ≤ 1 ∧ d.maySend (x.runtimes p).settings c = []) ∧
    ∀ threshold pass own pass', Course c (Reclaim.next (x.runtimes p).settings threshold) pass own pass' →
      updatesIn own ≤ 1 ∧ sentIn own = [] := by
  refine ⟨fun y es deeds h meets => ?_, d.keeps_iff (x.runtimes p).settings c, fun _ _ _ _ h => h.within_pass⟩
  obtain ⟨d', -, hcourse⟩ := h.course fired hd meets
  exact hcourse.within

/-- Three tasks that have used up their attempts wait, and the dispatcher has begun to retire the first of them. -/
def usedUp : List Choice :=
  (List.replicate 3 [Choice.spawn 1 0 (.ask (.create ⟨"text", "user"⟩) none), .act 1 0 .go]).flatten ++
    ([1, 2, 3].map fun id =>
      [Choice.spawn 1 0 (.ask (.updateStatus id (.claim default)) none), .act 1 0 .go,
        .spawn 1 0 (.ask (.updateStatus id (.ofStatus .pending)) none), .act 1 0 .go]).flatten ++
    [.spawn 0 0 (.dispatcher .starting), .act 0 0 .go, .act 0 0 (.at .zero), .act 0 0 (.at .zero)] ++
    List.replicate 5 (.act 0 0 .go)

/-- A dispatcher whose token fires during the first of three updates makes no more than these. -/
theorem keeps_to_one_update_of_usedUp : ∃ x es,
    (start (.memory .empty) default fun _ => { Settings.standard with maxAttempts := 1 }).run (usedUp ++ [.cancel 0]) =
        some (x, es) ∧
      ∀ y es deeds, Follows (fun _ => True) 0 x y es deeds →
        (∀ deed ∈ deedsIn 0 deeds, deed.Meets ⟨[], fun _ => false⟩) → updatesIn (deedsIn 0 deeds) ≤ 3 := by
  refine ⟨_, _, rfl, fun y es deeds h meets => ?_⟩
  obtain ⟨hupdates, -⟩ := (keeps_to_one_update_iff rfl rfl ⟨[], fun _ => false⟩).1 y es deeds h meets
  exact hupdates

/-- A dispatcher whose token fires during the first of three updates makes the other two as well. -/
theorem two_more_updates_of_usedUp : ∃ x y es es' d,
    (start (.memory .empty) default fun _ => { Settings.standard with maxAttempts := 1 }).run usedUp = some (x, es) ∧
      (x.seats 0 0).job = .dispatcher d ∧ d.begun = 1 ∧
      x.run (.cancel 0 :: List.replicate 14 (.act 0 0 .go)) = some (y, es') ∧
      moves es' = [(1, 2), (2, 2), (3, 2)] :=
  ⟨_, _, _, _, _, rfl, rfl, rfl, rfl, rfl⟩

end System

end Backlog.Interleaving

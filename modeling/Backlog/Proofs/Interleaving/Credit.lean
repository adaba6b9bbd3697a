import Backlog.Proofs.Interleaving.Pursuit

/-!
# Credits

A worker is credited with a transition when it goes on as one whose update has moved the task on: it counts the claim
and begins to work, or it counts the completion.

Key facts: what a seat may still be credited with in its round it has not got yet (`Fair`), and so nobody is credited
twice with the same version of a task, whatever happens (`fair_of_reaches`).
-/

namespace Backlog.Interleaving

open Dispatch Simulation Store

variable {x y : System} {p i : Nat} {s s' : Seat} {st : Step Job} {es es' : List Event}

/-- The credit that an event gives. -/
def Event.credit? : Event → Option (Author × Int × Int)
  | .credited a id version => some (a, id, version)
  | _ => none

/-- The credits that are given. -/
def credits (es : List Event) : List (Author × Int × Int) := es.filterMap Event.credit?

theorem credits_append (es es' : List Event) : credits (es ++ es') = credits es ++ credits es' :=
  List.filterMap_append

theorem credits_landing (b : Backend) (wall : Timestamp) (a : Author) (r : Request) :
    credits (landing b wall a r) = [] := by
  cases r with
  | updateStatus id u =>
    simp only [landing]
    split
    · cases b.versionOf? id <;> rfl
    · rfl
  | _ => rfl

private theorem credits_attempt (a : Author) (r : Request) (result : Except StoreError r.Answer) :
    credits (System.attempt a r result) = [] := by cases r <;> rfl

theorem credits_given (a : Author) (o : Option (Int × Int)) :
    credits (o.toList.map fun c => .credited a c.1 c.2) = o.toList.map fun c => (a, c) := by cases o <;> rfl

theorem System.Serves.credits_eq_nil (h : x.Serves p i s st s' y es) : credits es = [] := by
  cases h with
  | answered answer => rw [credits_append, credits_landing, credits_attempt]; rfl
  | failed passing => exact credits_attempt _ _ _
  | refused superseded => exact credits_attempt _ _ _
  | _ => rfl

/-- Nobody has been credited twice or ahead of time. -/
structure Fair (x : System) (es : List Event) : Prop where
  begun : ∀ a c, (a, c) ∈ credits es → a.round ≤ (x.seats a.runtime a.seat).round
  owed : ∀ p i, ∀ c ∈ due (x.seats p i).job, (⟨p, i, (x.seats p i).round⟩, c) ∉ credits es
  nodup : (credits es).Nodup

/-- A job that acts is credited only with what was due to it, and not again in the same round. -/
private theorem System.Serves.keepsDue {settings : Settings} (hst : s.job.next settings = st)
    (h : x.Serves p i s st s' y es) :
    (s'.round = s.round ∧ due s'.job ⊆ due s.job ∨ s.round < s'.round) ∧
      ∀ c, credit? s'.job = some c → c ∈ due s.job ∧ c ∉ due s'.job := by
  have hall := hst ▸ due_next settings s.job (fun _ _ => True) fun _ => True
  have hstill := hst ▸ due_next settings s.job (fun _ _ => True) fun _ => False
  constructor
  · cases h with
    | answered answer => exact .inl ⟨rfl, (hstill.2 _ trivial).1 fun _ h => h⟩
    | failed passing => exact .inl ⟨rfl, (hstill.2 _ trivial).1 fun _ h => h⟩
    | refused superseded => exact .inl ⟨rfl, (hstill.2 _ trivial).1 fun _ h => h⟩
    | interrupted cancelled => exact .inl ⟨rfl, (hstill.1 _ rfl).1 fun _ h => h⟩
    | waited lines keeps => exact .inl ⟨rfl, List.Subset.refl _⟩
    | received t keeps => exact .inr (Nat.lt_succ_self _)
    | went keeps noCall follows => exact .inl ⟨rfl, (follows _ _ hstill).1 fun _ h => h⟩
  · intro c hc
    rcases h.of_all hall with ⟨rfl, hline⟩ | ⟨-, hcredit⟩
    · obtain ⟨u, hu, -⟩ := exists_of_credit? hc
      have hnot := not_isLine_of_pursuit settings hu
      rw [hst, hline] at hnot
      cases hnot
    · exact hcredit c hc

/-- A seat that goes on, with a credit that is due to it or without one. -/
private theorem Fair.setSeat (h : Fair x es) (p i : Nat) (s' : Seat) {o : Option (Int × Int)}
    (hseats : y.seats = x.seats) (hgives : credits es' = o.toList.map fun c => (⟨p, i, s'.round⟩, c))
    (hround : s'.round = (x.seats p i).round ∧ due s'.job ⊆ due (x.seats p i).job ∨ (x.seats p i).round < s'.round)
    (hcredit : ∀ c, o = some c → c ∈ due (x.seats p i).job ∧ c ∉ due s'.job) :
    Fair (y.setSeat p i s') (es ++ es') := by
  have hcredits : credits (es ++ es') = credits es ++ o.toList.map fun c => (⟨p, i, s'.round⟩, c) := by
    rw [credits_append, hgives]
  have hle : (x.seats p i).round ≤ s'.round := by
    rcases hround with ⟨hsame, -⟩ | hlt
    · exact Nat.le_of_eq hsame.symm
    · exact Nat.le_of_lt hlt
  -- whatever the seat may get, now or later, it has not got in this round
  have hnew (c : Int × Int) (hc : c ∈ due (x.seats p i).job) : (⟨p, i, s'.round⟩, c) ∉ credits es := by
    intro hold
    have hbegun := h.begun _ _ hold
    rcases hround with ⟨hsame, -⟩ | hlt
    · rw [hsame] at hold
      exact h.owed p i c hc hold
    · exact absurd hlt (Nat.not_lt.2 hbegun)
  refine ⟨fun a c hc => ?_, fun q j c hc hmem => ?_, ?_⟩
  · rw [hcredits, List.mem_append] at hc
    rw [System.seats_setSeat, hseats]
    rcases hc with hc | hc
    · have hbegun := h.begun a c hc
      split
      · rename_i hseat
        rw [hseat.1, hseat.2] at hbegun
        omega
      · exact hbegun
    · obtain ⟨c', -, heq⟩ := List.mem_map.1 hc
      cases heq
      exact Nat.le_of_eq (by rw [if_pos ⟨rfl, rfl⟩])
  · rw [hcredits, List.mem_append] at hmem
    rw [System.seats_setSeat, hseats] at hc hmem
    by_cases hseat : q = p ∧ j = i
    · obtain ⟨rfl, rfl⟩ := hseat
      rw [if_pos ⟨rfl, rfl⟩] at hc hmem
      rcases hmem with hold | hgiven
      · rcases hround with ⟨-, hsub⟩ | hlt
        · exact hnew c (hsub hc) hold
        · exact absurd hlt (Nat.not_lt.2 (h.begun _ _ hold))
      · obtain ⟨c', hc', heq⟩ := List.mem_map.1 hgiven
        cases heq
        exact (hcredit c (Option.mem_toList.1 hc')).2 hc
    · rw [if_neg hseat] at hc hmem
      rcases hmem with hold | hgiven
      · exact h.owed q j c hc hold
      · obtain ⟨c', -, heq⟩ := List.mem_map.1 hgiven
        injection heq with ha
        injection ha with hp hi
        exact hseat ⟨hp.symm, hi.symm⟩
  · rw [hcredits, List.nodup_append]
    refine ⟨h.nodup, ?_, fun d hd d' hd' hsame => ?_⟩
    · cases o with
      | none => exact List.Pairwise.nil
      | some c => exact List.pairwise_singleton _ _
    · obtain ⟨c, hc, rfl⟩ := List.mem_map.1 hd'
      rw [hsame] at hd
      exact hnew c (hcredit c (Option.mem_toList.1 hc)).1 hd

/-- Whatever gives no credits and touches no seat is fair. -/
private theorem Fair.silent (h : Fair x es) (hseats : y.seats = x.seats) (hnone : credits es' = []) :
    Fair y (es ++ es') := by
  have hcredits : credits (es ++ es') = credits es := by rw [credits_append, hnone, List.append_nil]
  refine ⟨?_, ?_, ?_⟩
  · rw [hcredits, hseats]
    exact h.begun
  · rw [hcredits, hseats]
    exact h.owed
  · rw [hcredits]
    exact h.nodup

private theorem fair_start (b : Backend) (wall : Timestamp) (settings : Nat → Settings) :
    Fair (.start b wall settings) [] where
  begun a c hc := by cases hc
  owed p i c hc := by cases hc
  nodup := List.nodup_nil

private theorem Fair.step (h : Fair x es) {c : Choice} (hstep : x.step c = some (y, es')) : Fair y (es ++ es') := by
  cases System.happens_of_step hstep with
  | @spawned p i round reply job free begins =>
    have hround : (x.seats p i).round < round + 1 := by
      rw [free]
      exact Nat.lt_succ_self _
    exact h.setSeat p i ⟨round + 1, job⟩ (o := none) rfl rfl (.inr hround) fun c hc => by cases hc
  | @acted p i how s' z es₁ serves =>
    obtain ⟨hround, hcredit⟩ := serves.keepsDue rfl
    refine h.setSeat p i s' serves.seats_eq ?_ hround hcredit
    rw [credits_append, serves.credits_eq_nil, credits_given, List.nil_append]
  | landed drifts => exact h.silent rfl (credits_landing _ _ _ _)
  | cancelled => exact h.silent rfl rfl
  | timed => exact h.silent rfl rfl

/-- Whatever happens, nobody is credited twice or ahead of time. -/
theorem fair_of_reaches {b : Backend} {wall : Timestamp} {settings : Nat → Settings} {allowed : Choice → Prop}
    (h : System.Reaches allowed (.start b wall settings) x es) : Fair x es := by
  induction h with
  | start => exact fair_start b wall settings
  | step _ _ hstep ih => exact ih.step hstep

end Backlog.Interleaving

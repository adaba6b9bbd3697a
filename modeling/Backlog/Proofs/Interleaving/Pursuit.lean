import Backlog.Proofs.Interleaving.Holding

/-!
# What a worker pursues

A worker that has taken a task pursues two transitions of it, one after the other: from the version that its copy has,
and from the next one.  It is credited with each of them once at most; and it is credited only after its update was
acknowledged, or after an update that was not acknowledged, a refusal and a look at the task.

Key facts: what a worker may still be credited with shrinks with each credit (`due_next`), a job that pursues a
transition goes on with it (`next_of_pursuit`), and any other job can only begin one (`pursuit?_next`).
-/

namespace Backlog

open Dispatch Simulation Store

/-- Whether an attempt has failed for a passing reason, as far as the stage of a transition tells. -/
def Dispatch.Transition.hasFailed : Transition → Bool
  | updating failures _ => 0 < failures
  | pausing _ _ _ => true
  | confirming _ => true
  | done _ => false

/-- The tasks and the versions from which a worker may still be credited with moving them. -/
def Dispatch.Worker.due : Worker → List (Int × Int)
  | accepted task => [(task.id, task.version), (task.id, task.version + 1)]
  | claiming task _ (.done (.ok _)) => [(task.id, task.version + 1)]
  | claiming task _ _ => [(task.id, task.version), (task.id, task.version + 1)]
  | announcing task _ => [(task.id, task.version + 1)]
  | drawing task _ => [(task.id, task.version + 1)]
  | working task _ _ => [(task.id, task.version + 1)]
  | finishing task _ => [(task.id, task.version + 1)]
  | completing _ _ _ (.done _) => []
  | completing task _ _ _ => [(task.id, task.version + 1)]
  | _ => []

namespace Interleaving

variable {answers : (r : Request) → Except StoreError r.Answer → Prop} {came : Task → Prop} {job : Job} {q : Pursuit}

/-- What a job may still be credited with. -/
def due : Job → List (Int × Int)
  | .worker w => w.due
  | _ => []

/-! ### Credits -/

/-- Whoever is credited has come to the end of a transition. -/
theorem exists_of_credit? {c : Int × Int} (h : credit? job = some c) :
    ∃ u, pursuit? job = some ⟨c.1, u, .done (.ok ())⟩ ∧ u.expectedVersion = some c.2 := by
  unfold credit? at h
  split at h
  · rename_i id u hq
    obtain ⟨v, hv, rfl⟩ := Option.map_eq_some_iff.1 h
    exact ⟨u, hq, hv⟩
  · cases h

/-- A worker moves tasks to processing and to completed only. -/
theorem status_of_pursuit (hq : pursuit? job = some q) :
    q.update.status = .processing ∨ q.update.status = .completed := by
  cases job with
  | worker w =>
    cases w with
    | claiming task start stage =>
      cases hq
      exact .inl rfl
    | completing task start finish stage =>
      cases hq
      exact .inr rfl
    | _ => cases hq
  | _ => cases hq

/-! ### What may still be credited -/

private theorem due_claiming (task : Task) (start : Timestamp) (stage : Transition) :
    due (.worker (.claiming task start stage)) ⊆ [(task.id, task.version), (task.id, task.version + 1)] ∧
      ∀ c, credit? (.worker (.claiming task start stage)) = some c →
        c = (task.id, task.version) ∧ c ∉ due (.worker (.claiming task start stage)) := by
  constructor
  · cases stage with
    | done result =>
      cases result with
      | ok a => exact List.subset_cons_self _ _
      | error e => exact List.Subset.refl _
    | _ => exact List.Subset.refl _
  · rintro ⟨id, version⟩ hc
    obtain ⟨u, hu, hv⟩ := exists_of_credit? hc
    cases hu
    obtain rfl : task.version = version := Option.some.inj hv
    -- what is still due is the completion, from the next version
    refine ⟨rfl, fun hmem => ?_⟩
    have hversion : task.version = task.version + 1 := congrArg Prod.snd (List.mem_singleton.1 hmem)
    omega

private theorem due_completing (task : Task) (start finish : Timestamp) (stage : Transition) :
    due (.worker (.completing task start finish stage)) ⊆ [(task.id, task.version + 1)] ∧
      ∀ c, credit? (.worker (.completing task start finish stage)) = some c →
        c = (task.id, task.version + 1) ∧ c ∉ due (.worker (.completing task start finish stage)) := by
  constructor
  · cases stage with
    | done result => exact List.nil_subset _
    | _ => exact List.Subset.refl _
  · rintro ⟨id, version⟩ hc
    obtain ⟨u, hu, hv⟩ := exists_of_credit? hc
    cases hu
    obtain rfl : task.version + 1 = version := Option.some.inj hv
    exact ⟨rfl, fun hmem => by cases hmem⟩

/-- Whether a job keeps to what it may still be credited with, unless a task comes from the channel. -/
private def KeepsDue (came : Task → Prop) (job job' : Job) : Prop :=
  ((∀ t, ¬ came t) → due job' ⊆ due job) ∧ ∀ c, credit? job' = some c → c ∈ due job ∧ c ∉ due job'

private theorem keepsDue_of_none {job' : Job} (hdue : due job' ⊆ due job) (hnone : pursuit? job' = none) :
    KeepsDue came job job' := by
  refine ⟨fun _ => hdue, fun c hc => ?_⟩
  obtain ⟨u, hu, -⟩ := exists_of_credit? hc
  rw [hnone] at hu
  cases hu

private theorem keepsDue_claiming {task : Task} {start : Timestamp}
    (hdue : due job = [(task.id, task.version), (task.id, task.version + 1)]) (stage : Transition) :
    KeepsDue came job (.worker (.claiming task start stage)) := by
  obtain ⟨hsub, hcredit⟩ := due_claiming task start stage
  refine ⟨fun _ => ?_, fun c hc => ?_⟩
  · rw [hdue]
    exact hsub
  · obtain ⟨rfl, hnot⟩ := hcredit c hc
    rw [hdue]
    exact ⟨List.mem_cons_self, hnot⟩

private theorem keepsDue_completing {task : Task} {start finish : Timestamp}
    (hdue : due job = [(task.id, task.version + 1)]) (stage : Transition) :
    KeepsDue came job (.worker (.completing task start finish stage)) := by
  obtain ⟨hsub, hcredit⟩ := due_completing task start finish stage
  refine ⟨fun _ => ?_, fun c hc => ?_⟩
  · rw [hdue]
    exact hsub
  · obtain ⟨rfl, hnot⟩ := hcredit c hc
    rw [hdue]
    exact ⟨List.mem_cons_self, hnot⟩

private theorem due_worker (s : Settings) (w : Worker) :
    (w.next s).All answers came fun w' => KeepsDue came (.worker w) (.worker w') := by
  cases w with
  | idle =>
    refine ⟨fun y hy => ?_, fun t ht => ⟨fun hnone => absurd ht (hnone t), fun c hc => by cases hc⟩⟩
    cases hy
    exact keepsDue_of_none (List.Subset.refl _) rfl
  | accepted task => exact fun start => keepsDue_claiming rfl _
  | claiming task start stage =>
    cases stage with
    | done result =>
      cases result with
      | ok a => exact keepsDue_of_none (List.Subset.refl _) rfl
      | error e =>
        simp only [Worker.next]
        split
        · exact fun _ => keepsDue_of_none (List.nil_subset _) rfl
        · exact keepsDue_of_none (List.nil_subset _) rfl
    | _ =>
      rw [next_claiming s task start fun _ h => by cases h]
      exact Step.all_map.2 (Step.all_of_forall (fun _ => keepsDue_claiming rfl _) _)
  | announcing task start => exact keepsDue_of_none (List.Subset.refl _) rfl
  | drawing task start => exact fun ms => keepsDue_of_none (List.Subset.refl _) rfl
  | working task start span =>
    refine ⟨fun y hy => ?_, keepsDue_of_none (List.Subset.refl _) rfl⟩
    cases hy
    exact keepsDue_of_none (List.nil_subset _) rfl
  | finishing task start => exact fun now => keepsDue_completing rfl _
  | completing task start finish stage =>
    cases stage with
    | done result =>
      cases result with
      | ok a => exact keepsDue_of_none (List.nil_subset _) rfl
      | error e => exact keepsDue_of_none (List.nil_subset _) rfl
    | _ =>
      rw [next_completing s task start finish fun _ h => by cases h]
      exact Step.all_map.2 (Step.all_of_forall (fun _ => keepsDue_completing rfl _) _)
  | counting task finish => exact keepsDue_of_none (List.nil_subset _) rfl
  | closing task finish => exact keepsDue_of_none (List.nil_subset _) rfl
  | releasing id => exact fun _ => keepsDue_of_none (List.nil_subset _) rfl
  | stopped => trivial

/-- Whatever a job is credited with, it could be credited with before, and cannot be again. -/
theorem due_next (s : Settings) (job : Job) (answers : (r : Request) → Except StoreError r.Answer → Prop)
    (came : Task → Prop) :
    (job.next s).All answers came fun job' =>
      ((∀ t, ¬ came t) → due job' ⊆ due job) ∧ ∀ c, credit? job' = some c → c ∈ due job ∧ c ∉ due job' := by
  have hnone {job' : Job} (hdue : due job' = []) (hpursuit : pursuit? job' = none) : KeepsDue came job job' :=
    keepsDue_of_none (hdue ▸ List.nil_subset _) hpursuit
  cases job with
  | dispatcher d => exact Step.all_map.2 (Step.all_of_forall (fun _ => hnone rfl rfl) _)
  | worker w => exact Step.all_map.2 (due_worker s w)
  | poll poll => exact Step.all_map.2 (Step.all_of_forall (fun _ => hnone rfl rfl) _)
  | reclaim pass => exact Step.all_map.2 (Step.all_of_forall (fun _ => hnone rfl rfl) _)
  | ask r limit => exact ⟨fun _ hy => (by cases hy), fun _ _ => hnone rfl rfl⟩
  | enqueue interruptible task stage => exact Step.all_map.2 (Step.all_of_forall (fun _ => hnone rfl rfl) _)
  | receive => exact ⟨fun _ hy => (by cases hy), fun _ _ => hnone rfl rfl⟩
  | pause span => exact ⟨fun _ hy => (by cases hy), hnone rfl rfl⟩
  | ended reply => trivial

/-! ### How a pursuit goes on -/

/-- A job that pursues a transition goes on with it until it is over. -/
theorem next_of_pursuit (s : Settings) (hq : pursuit? job = some q) (running : ∀ result, q.stage ≠ .done result) :
    ∃ g : Transition → Job, job.next s = (q.stage.next s q.id q.update).map g ∧
      ∀ stage, pursuit? (g stage) = some { q with stage } := by
  cases job with
  | worker w =>
    cases w with
    | claiming task start stage =>
      cases hq
      refine ⟨fun stage => .worker (.claiming task start stage), ?_, fun stage => rfl⟩
      simp only [Job.next]
      rw [next_claiming s task start running, Step.map_map]
    | completing task start finish stage =>
      cases hq
      refine ⟨fun stage => .worker (.completing task start finish stage), ?_, fun stage => rfl⟩
      simp only [Job.next]
      rw [next_completing s task start finish running, Step.map_map]
    | _ => cases hq
  | _ => cases hq

/-- Any other job pursues nothing, or begins to. -/
theorem pursuit?_next (s : Settings) (job : Job)
    (finished : ∀ q, pursuit? job = some q → ∃ result, q.stage = .done result)
    (answers : (r : Request) → Except StoreError r.Answer → Prop) (came : Task → Prop) :
    (job.next s).All answers came fun job' => ∀ q, pursuit? job' = some q → q.stage = .start s := by
  have hnone {job' : Job} (hpursuit : pursuit? job' = none) (q : Pursuit) (hq : pursuit? job' = some q) :
      q.stage = .start s := by
    rw [hpursuit] at hq
    cases hq
  cases job with
  | dispatcher d => exact Step.all_map.2 (Step.all_of_forall (fun _ => hnone rfl) _)
  | worker w =>
    refine Step.all_map.2 ?_
    cases w with
    | idle =>
      refine ⟨fun y hy => ?_, fun t ht => hnone rfl⟩
      cases hy
      exact hnone rfl
    | accepted task =>
      rintro start q ⟨⟩
      rfl
    | claiming task start stage =>
      obtain ⟨result, rfl⟩ := finished _ rfl
      cases result with
      | ok a => exact hnone rfl
      | error e =>
        simp only [Worker.next]
        split
        · exact fun _ => hnone rfl
        · exact hnone rfl
    | working task start span =>
      refine ⟨fun y hy => ?_, hnone rfl⟩
      cases hy
      exact hnone rfl
    | finishing task start =>
      rintro now q ⟨⟩
      rfl
    | completing task start finish stage =>
      obtain ⟨result, rfl⟩ := finished _ rfl
      cases result with
      | ok a => exact hnone rfl
      | error e => exact hnone rfl
    | announcing task start => exact hnone rfl
    | drawing task start => exact fun ms => hnone rfl
    | counting task finish => exact hnone rfl
    | closing task finish => exact hnone rfl
    | releasing id => exact fun _ => hnone rfl
    | stopped => trivial
  | poll poll => exact Step.all_map.2 (Step.all_of_forall (fun _ => hnone rfl) _)
  | reclaim pass => exact Step.all_map.2 (Step.all_of_forall (fun _ => hnone rfl) _)
  | ask r limit => exact ⟨fun _ hy => (by cases hy), fun _ _ => hnone rfl⟩
  | enqueue interruptible task stage => exact Step.all_map.2 (Step.all_of_forall (fun _ => hnone rfl) _)
  | receive => exact ⟨fun _ hy => (by cases hy), fun _ _ => hnone rfl⟩
  | pause span => exact ⟨fun _ hy => (by cases hy), hnone rfl⟩
  | ended reply => trivial

/-- Nobody who pursues a transition waits in a line. -/
theorem not_isLine_of_pursuit (s : Settings) (hq : pursuit? job = some q) : System.isLine (job.next s) = false := by
  cases job with
  | worker w =>
    cases w with
    | claiming task start stage =>
      cases stage with
      | done result =>
        cases result with
        | ok a => rfl
        | error e =>
          simp only [Job.next, Worker.next]
          split <;> rfl
      | _ => rfl
    | completing task start finish stage =>
      cases stage with
      | done result => cases result <;> rfl
      | _ => rfl
    | _ => cases hq
  | _ => cases hq

end Interleaving

end Backlog

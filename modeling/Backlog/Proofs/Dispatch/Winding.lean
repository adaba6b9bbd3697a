import Backlog.Proofs.Dispatch.Station

/-!
# A tick whose token has fired

The token of a dispatcher fires in the middle of a tick.  The pass of the reclaiming looks at the token before every
task, but a poll does not: it gives up its listing, or the task that it is just sending, only if the token comes first,
and it goes on from one used-up task to the next without a look at the token.

Key facts: every deed of a tick is paid for from what was left to it (`Dispatcher.pays_of_does`), and some course of the
tick spends all of that (`Dispatcher.spends_all`).  So the tick keeps to one more update and hands over nothing exactly
if no more than that was left to it (`Dispatcher.keeps_iff`).
-/

namespace Backlog.Dispatch

open Store

/-! ### Courses -/

/-- What a tick meets after its token has fired. -/
structure Scene where
  /-- The waiting tasks that a listing shows. -/
  listed : List Task
  /-- The tasks that the queue tracks whenever it is asked. -/
  tracked : Int → Bool

namespace Scene

/-- Whether a poll that comes to a task may retire it. -/
def retires (c : Scene) (s : Settings) (task : Task) : Bool :=
  !c.tracked task.id && decide (s.maxAttempts ≤ task.attempts)

/-- Whether a poll that comes to a task may hand it over. -/
def hands (c : Scene) (s : Settings) (task : Task) : Bool :=
  !c.tracked task.id && decide (task.attempts < s.maxAttempts)

end Scene

namespace Deed

/-- Whether a deed updates the status of a task. -/
def isUpdate : Deed → Bool
  | ask (.updateStatus _ _) _ => true
  | _ => false

/-- A deed that is done in a scene, and that begins no other tick. -/
def Meets (c : Scene) : Deed → Prop
  | wake _ => False
  | look id tracked => c.tracked id = true → tracked = true
  | ask (.listByStatus .pending) (.ok tasks) => tasks = c.listed
  | _ => True

/-- A deed that is done in a scene after the token has fired. -/
def IsLate (c : Scene) : Deed → Prop
  | see cancelled => cancelled = true
  | deed => deed.Meets c

/-- What is done as the token allows after it has fired is late. -/
theorem Fits.isLate {t : Ticket} {q : Queue} {c : Scene} {deed : Deed} (h : deed.Fits t true q) (meets : deed.Meets c) :
    deed.IsLate c := by
  cases deed with
  | see cancelled => exact h
  | _ => exact meets

end Deed

/-- The number of updates among deeds. -/
def updatesIn (deeds : List Deed) : Nat := deeds.countP Deed.isUpdate

/-- The tasks that are sent by deeds. -/
def sentIn (deeds : List Deed) : List Task := deeds.filterMap Deed.sent?

/-- A machine goes on, deed by deed, after its token has fired, and comes to no other tick. -/
inductive Course (c : Scene) {σ : Type} (next : σ → Step σ) : σ → List Deed → σ → Prop where
  | rest (z : σ) : Course c next z [] z
  | step {z z' z'' : σ} {deed : Deed} {deeds : List Deed} (does : (next z).Does z deed z') (late : deed.IsLate c)
      (h : Course c next z' deeds z'') : Course c next z (deed :: deeds) z''

variable {s : Settings} {c : Scene} {deed : Deed} {deeds more : List Deed}

theorem updatesIn_cons (deed : Deed) (deeds : List Deed) :
    updatesIn (deed :: deeds) = updatesIn deeds + updatesIn [deed] := by
  unfold updatesIn
  rw [List.countP_cons, List.countP_singleton]

theorem updatesIn_append (deeds more : List Deed) : updatesIn (deeds ++ more) = updatesIn deeds + updatesIn more :=
  List.countP_append

theorem sentIn_cons (deed : Deed) (deeds : List Deed) : sentIn (deed :: deeds) = sentIn [deed] ++ sentIn deeds :=
  List.filterMap_append (l := [deed])

theorem sentIn_append (deeds more : List Deed) : sentIn (deeds ++ more) = sentIn deeds ++ sentIn more :=
  List.filterMap_append

theorem Course.append {σ : Type} {next : σ → Step σ} {z z' z'' : σ} (h : Course c next z deeds z')
    (h' : Course c next z' more z'') : Course c next z (deeds ++ more) z'' := by
  induction h with
  | rest z => exact h'
  | step does late _ ih => exact .step does late (ih h')

theorem Course.concat {σ : Type} {next : σ → Step σ} {z z' z'' : σ} (h : Course c next z deeds z')
    (does : (next z').Does z' deed z'') (late : deed.IsLate c) : Course c next z (deeds ++ [deed]) z'' :=
  h.append (.step does late (.rest z''))

/-! ### What is left to a tick -/

/-- The update that is under way. -/
def Retirement.begun : Retirement → Nat
  | updating => 1
  | _ => 0

namespace Reclaim

/-- The update that is under way. -/
def begun : Reclaim → Nat
  | retiring _ _ _ _ stage => stage.begun
  | _ => 0

/-- The updates that a pass may begin yet: that of the task for which it asks the queue. -/
def mayBegin (c : Scene) (threshold : Duration) : Reclaim → Nat
  | checking now task _ _ => if !c.tracked task.id && isStale threshold now task then 1 else 0
  | _ => 0

/-- Whether nothing is left of a pass. -/
def isOver : Reclaim → Bool
  | retiring _ _ _ _ (.done _) => true
  | done _ => true
  | _ => false

end Reclaim

namespace Poll

/-- The update that is under way. -/
def begun : Poll → Nat
  | retiring _ _ _ stage => stage.begun
  | _ => 0

/-- The task that is on its way into the channel. -/
def underWay : Poll → List Task
  | enqueueing task _ _ .tracking => [task]
  | enqueueing task _ _ .sending => [task]
  | _ => []

/-- The tasks that a poll comes to yet, if its listing is still to come and shows just these. -/
def unseen (c : Scene) : Poll → List Task
  | starting => c.listed
  | listing => c.listed
  | checking task rest _ => task :: rest
  | retiring _ _ _ (.done _) => []
  | retiring _ rest _ _ => rest
  | enqueueing _ rest _ .tracking => rest
  | enqueueing _ rest _ .sending => rest
  | counting rest _ => rest
  | _ => []

/-- The updates that a poll may begin yet. -/
def mayBegin (s : Settings) (c : Scene) (poll : Poll) : Nat := (poll.unseen c).countP (c.retires s)

/-- The tasks that a poll may send yet. -/
def maySend (s : Settings) (c : Scene) (poll : Poll) : List Task :=
  poll.underWay ++ (poll.unseen c).filter (c.hands s)

end Poll

namespace Dispatcher

/-- The update that is under way. -/
def begun : Dispatcher → Nat
  | reclaiming _ _ pass => pass.begun
  | polling _ poll => poll.begun
  | _ => 0

/-- The updates that the rest of a tick may begin after the token has fired. -/
def mayBegin (s : Settings) (c : Scene) : Dispatcher → Nat
  | reclaiming _ threshold pass => pass.mayBegin c threshold + if pass.isOver then 0 else c.listed.countP (c.retires s)
  | polling _ poll => poll.mayBegin s c
  | _ => 0

/-- The tasks that the rest of a tick may send. -/
def maySend (s : Settings) (c : Scene) : Dispatcher → List Task
  | reclaiming _ _ pass => if pass.isOver then [] else c.listed.filter (c.hands s)
  | polling _ poll => poll.maySend s c
  | _ => []

end Dispatcher

/-! ### Every deed is paid for -/

private theorem Reclaim.updates_onward (c : Scene) (threshold : Duration) (now : Timestamp) (count : Nat)
    (rest : List Task) :
    (onward now count rest).mayBegin c threshold + (onward now count rest).begun = 0 := by
  cases rest <;> rfl

private theorem Poll.updates_onward (s : Settings) (c : Scene) (count : Nat) (rest : List Task) :
    (onward count rest).mayBegin s c + (onward count rest).begun = rest.countP (c.retires s) := by
  cases rest <;> rfl

private theorem Poll.maySend_onward (s : Settings) (c : Scene) (count : Nat) (rest : List Task) :
    (onward count rest).maySend s c = rest.filter (c.hands s) := by
  cases rest <;> rfl

theorem Retirement.goesOn_of_does {task : Task} {stage stage' : Retirement}
    (h : (stage.next s task).Does stage deed stage') (moved : Bool) : stage ≠ .done moved := by
  rintro rfl
  cases h

theorem Poll.unseen_retiring {stage : Retirement} (goesOn : ∀ moved, stage ≠ .done moved) (c : Scene)
    (task : Task) (rest : List Task) (count : Nat) : (retiring task rest count stage).unseen c = rest := by
  cases stage with
  | done moved => exact absurd rfl (goesOn moved)
  | _ => rfl

theorem Retirement.pays_of_does {task : Task} {stage stage' : Retirement}
    (h : (stage.next s task).Does stage deed stage') :
    stage'.begun + updatesIn [deed] ≤ stage.begun ∧ sentIn [deed] = [] := by
  cases stage with
  | updating =>
    cases h with
    | ask result => cases result <;> exact ⟨Nat.le_refl 1, rfl⟩
    | drop h => cases h
  | done moved => cases h
  | _ =>
    cases h
    exact ⟨Nat.le_refl 0, rfl⟩

theorem Reclaim.pays_of_does {threshold : Duration} {pass pass' : Reclaim}
    (h : (pass.next s threshold).Does pass deed pass') (late : deed.IsLate c) :
    pass'.mayBegin c threshold + pass'.begun + updatesIn [deed] ≤ pass.mayBegin c threshold + pass.begun ∧
      sentIn [deed] = [] := by
  cases pass with
  | listing =>
    cases h with
    | ask result => cases result <;> exact ⟨Nat.le_refl 0, rfl⟩
    | drop h =>
      cases h
      exact ⟨Nat.le_refl 0, rfl⟩
  | dating tasks =>
    cases h
    exact ⟨Nat.le_of_eq (updates_onward ..), rfl⟩
  | guarding now task rest count =>
    cases h
    cases late
    exact ⟨Nat.le_refl 0, rfl⟩
  | checking now task rest count =>
    cases h with
    | look tracked =>
      refine ⟨?_, rfl⟩
      dsimp only
      split
      · -- the queue says that it does not track the task, so the scene leaves it untracked
        rename_i hretired
        obtain ⟨hfree, hold⟩ := Bool.and_eq_true_iff.1 hretired
        have htracked : c.tracked task.id = false := by
          rw [Bool.not_eq_true'] at hfree
          simpa [Deed.IsLate, Deed.Meets, hfree] using late
        simp [mayBegin, htracked, hold, begun, Retirement.begun, updatesIn, Deed.isUpdate]
      · exact Nat.le_trans (Nat.le_of_eq (updates_onward c ..)) (Nat.zero_le _)
  | retiring now task rest count stage =>
    obtain ⟨stage', hdoes, rfl⟩ := does_retiring h
    obtain ⟨hupdates, hsent⟩ := Retirement.pays_of_does hdoes
    refine ⟨?_, hsent⟩
    have hafter : (afterRetirement now task rest count stage').mayBegin c threshold +
        (afterRetirement now task rest count stage').begun ≤ stage'.begun := by
      cases stage' with
      | done moved => exact Nat.le_of_eq (updates_onward ..)
      | _ => exact Nat.le_of_eq (Nat.zero_add _)
    calc
      _ ≤ stage'.begun + updatesIn [deed] := Nat.add_le_add_right hafter _
      _ ≤ stage.begun := hupdates
      _ ≤ _ := Nat.le_add_left ..
  | done result => cases h

theorem Poll.pays_of_does {poll poll' : Poll} (h : (poll.next s).Does poll deed poll') (late : deed.IsLate c) :
    poll'.mayBegin s c + poll'.begun + updatesIn [deed] ≤ poll.mayBegin s c + poll.begun ∧
      (sentIn [deed] ++ poll'.maySend s c).Sublist (poll.maySend s c) := by
  have honward (count : Nat) (rest : List Task) :
      ((onward count rest).maySend s c).Sublist (rest.filter (c.hands s)) := by
    rw [maySend_onward]
  cases poll with
  | starting =>
    cases h
    exact ⟨Nat.le_refl _, List.Sublist.refl _⟩
  | listing =>
    cases h with
    | ask result =>
      cases result with
      | ok tasks =>
        cases late
        exact ⟨Nat.le_of_eq (updates_onward ..), honward 0 c.listed⟩
      | error e => exact ⟨Nat.zero_le _, List.nil_sublist _⟩
    | drop h =>
      cases h
      exact ⟨Nat.zero_le _, List.nil_sublist _⟩
  | failing e =>
    cases h
    exact ⟨Nat.le_refl 0, List.nil_sublist _⟩
  | checking task rest count =>
    have hrest : rest.Sublist (task :: rest) := List.sublist_cons_self ..
    cases h with
    | look tracked =>
      cases tracked with
      | true =>
        exact ⟨Nat.le_trans (Nat.le_of_eq (updates_onward ..)) hrest.countP_le, (honward ..).trans (hrest.filter _)⟩
      | false =>
        have hfree : c.tracked task.id = false := by simpa [Deed.IsLate, Deed.Meets] using late
        simp only [afterCheck, Bool.false_eq_true, if_false]
        split
        · rename_i hspent
          have hcount : (task :: rest).countP (c.retires s) = rest.countP (c.retires s) + 1 :=
            List.countP_cons_of_pos (by simp [Scene.retires, hfree, hspent])
          exact ⟨Nat.le_of_eq hcount.symm, hrest.filter _⟩
        · rename_i hfresh
          have hfilter : (task :: rest).filter (c.hands s) = task :: rest.filter (c.hands s) :=
            List.filter_cons_of_pos (by simpa [Scene.hands, hfree] using hfresh)
          refine ⟨hrest.countP_le, ?_⟩
          rw [show (checking task rest count).maySend s c = _ from hfilter]
          exact List.Sublist.refl _
  | retiring task rest count stage =>
    obtain ⟨stage', hdoes, rfl⟩ := does_retiring h
    obtain ⟨hupdates, hsent⟩ := Retirement.pays_of_does hdoes
    have hbefore := unseen_retiring (Retirement.goesOn_of_does hdoes) c task rest count
    have hafter : (afterRetirement task rest count stage').mayBegin s c +
          (afterRetirement task rest count stage').begun ≤ rest.countP (c.retires s) + stage'.begun ∧
        ((afterRetirement task rest count stage').maySend s c).Sublist (rest.filter (c.hands s)) := by
      cases stage' with
      | done moved => exact ⟨Nat.le_of_eq (updates_onward ..), honward ..⟩
      | _ => exact ⟨Nat.le_refl _, List.Sublist.refl _⟩
    refine ⟨?_, ?_⟩
    · calc
        _ ≤ rest.countP (c.retires s) + stage'.begun + updatesIn [deed] := Nat.add_le_add_right hafter.1 _
        _ = rest.countP (c.retires s) + (stage'.begun + updatesIn [deed]) := Nat.add_assoc ..
        _ ≤ rest.countP (c.retires s) + stage.begun := Nat.add_le_add_left hupdates _
        _ = _ := by rw [mayBegin, hbefore, begun]
    · rw [hsent, show (retiring task rest count stage).maySend s c = _ from congrArg (List.filter _) hbefore]
      exact hafter.2
  | enqueueing task rest count stage =>
    obtain ⟨stage', hdoes, rfl⟩ := does_enqueueing h
    cases stage with
    | tracking =>
      cases hdoes
      exact ⟨Nat.le_refl _, List.Sublist.refl _⟩
    | sending =>
      cases hdoes with
      | join => exact ⟨Nat.le_refl _, List.Sublist.refl _⟩
      | send => exact ⟨Nat.le_refl _, List.Sublist.refl _⟩
      | leave h =>
        cases h
        exact ⟨Nat.zero_le _, List.nil_sublist _⟩
    | withdrawing =>
      cases hdoes
      exact ⟨Nat.le_refl 0, List.nil_sublist _⟩
    | done sent => cases hdoes
  | counting rest count =>
    cases h
    exact ⟨Nat.le_of_eq (updates_onward ..), honward ..⟩
  | done result => cases h

/-- A deed of a tick whose token has fired is paid for from what was left to the tick. -/
theorem Dispatcher.pays_of_does {d d' : Dispatcher} (h : (d.next s).Does d deed d') (late : deed.IsLate c) :
    d'.mayBegin s c + d'.begun + updatesIn [deed] ≤ d.mayBegin s c + d.begun ∧
      (sentIn [deed] ++ d'.maySend s c).Sublist (d.maySend s c) := by
  cases d with
  | reclaiming due threshold pass =>
    obtain ⟨pass', hdoes, rfl⟩ := does_reclaiming h
    obtain ⟨hupdates, hsent⟩ := Reclaim.pays_of_does hdoes late
    have hon : pass.isOver = false := by
      cases pass with
      | retiring now task rest count stage =>
        cases stage with
        | done moved => cases hdoes
        | _ => rfl
      | done result => cases hdoes
      | _ => rfl
    have hafter : (afterReclaim due threshold pass').mayBegin s c + (afterReclaim due threshold pass').begun ≤
          pass'.mayBegin c threshold + pass'.begun + c.listed.countP (c.retires s) ∧
        ((afterReclaim due threshold pass').maySend s c).Sublist (c.listed.filter (c.hands s)) := by
      have hover :
          pass'.mayBegin c threshold + (if pass'.isOver then 0 else c.listed.countP (c.retires s)) + pass'.begun ≤
            pass'.mayBegin c threshold + pass'.begun + c.listed.countP (c.retires s) := by split <;> omega
      have hsub : (if pass'.isOver then [] else c.listed.filter (c.hands s)).Sublist
          (c.listed.filter (c.hands s)) := by
        split
        · exact List.nil_sublist _
        · exact List.Sublist.refl _
      cases pass' with
      | done result => exact ⟨Nat.le_of_eq (Nat.zero_add _).symm, List.Sublist.refl _⟩
      | _ => exact ⟨hover, hsub⟩
    constructor
    · have hall : (reclaiming due threshold pass).mayBegin s c + (reclaiming due threshold pass).begun =
          pass.mayBegin c threshold + pass.begun + c.listed.countP (c.retires s) := by
        simp only [mayBegin, begun, hon, Bool.false_eq_true, if_false]
        omega
      omega
    · rw [hsent, show (reclaiming due threshold pass).maySend s c = _ from if_neg (by simp [hon])]
      exact hafter.2
  | polling due poll =>
    obtain ⟨poll', hdoes, rfl⟩ := does_polling h
    obtain ⟨hupdates, hsent⟩ := Poll.pays_of_does hdoes late
    cases poll' with
    | done result => exact ⟨hupdates, hsent⟩
    | _ => exact ⟨hupdates, hsent⟩
  | waiting first due =>
    cases h with
    | wake moment => cases late
    | rise h =>
      cases h
      exact ⟨Nat.le_refl 0, List.nil_sublist _⟩
  | stopped => cases h
  | _ =>
    cases h
    exact ⟨Nat.le_refl 0, List.nil_sublist _⟩

/-- However a tick goes on, it spends no more than was left to it. -/
theorem Course.within {d d' : Dispatcher} (h : Course c (Dispatcher.next s) d deeds d') :
    updatesIn deeds ≤ d.mayBegin s c + d.begun ∧ (sentIn deeds).Sublist (d.maySend s c) := by
  induction h with
  | rest d => exact ⟨Nat.zero_le _, List.nil_sublist _⟩
  | @step d d' d'' deed deeds does late _ ih =>
    obtain ⟨hupdates, hsent⟩ := Dispatcher.pays_of_does does late
    rw [updatesIn_cons, sentIn_cons]
    exact ⟨by omega, (List.Sublist.append_left ih.2 _).trans hsent⟩

/-- However a pass goes on, it makes one update at most and sends nothing. -/
theorem Course.within_pass {threshold : Duration} {pass pass' : Reclaim}
    (h : Course c (Reclaim.next s threshold) pass deeds pass') : updatesIn deeds ≤ 1 ∧ sentIn deeds = [] := by
  have hspent : updatesIn deeds ≤ pass.mayBegin c threshold + pass.begun ∧ sentIn deeds = [] := by
    induction h with
    | rest pass => exact ⟨Nat.zero_le _, rfl⟩
    | @step pass pass' pass'' deed deeds does late _ ih =>
      obtain ⟨hupdates, hsent⟩ := Reclaim.pays_of_does does late
      rw [updatesIn_cons, sentIn_cons, hsent, ih.2]
      exact ⟨by omega, rfl⟩
  have hone : pass.mayBegin c threshold + pass.begun ≤ 1 := by
    cases pass with
    | checking now task rest count =>
      show (if _ then 1 else 0) + 0 ≤ 1
      split <;> omega
    | retiring now task rest count stage => cases stage <;> simp [Reclaim.mayBegin, Reclaim.begun, Retirement.begun]
    | _ => exact Nat.zero_le 1
  exact ⟨Nat.le_trans hspent.1 hone, hspent.2⟩

/-! ### All of it can be spent -/

/-- A machine may go on from one state to another with so many updates, and send just these tasks. -/
def Spends (c : Scene) {σ : Type} (next : σ → Step σ) (z : σ) (updates : Nat) (sent : List Task) (z' : σ) : Prop :=
  ∃ deeds, Course c next z deeds z' ∧ updatesIn deeds = updates ∧ sentIn deeds = sent

namespace Spends

variable {σ τ : Type} {next : σ → Step σ} {next' : τ → Step τ} {z z' z'' : σ} {n n' : Nat} {sent sent' : List Task}

theorem rest (z : σ) : Spends c next z 0 [] z := ⟨[], .rest z, rfl, rfl⟩

theorem step (does : (next z).Does z deed z') (late : deed.IsLate c) (h : Spends c next z' n sent z'') :
    Spends c next z (updatesIn [deed] + n) (sentIn [deed] ++ sent) z'' := by
  obtain ⟨deeds, hcourse, rfl, rfl⟩ := h
  refine ⟨deed :: deeds, .step does late hcourse, ?_, sentIn_cons ..⟩
  rw [updatesIn_cons, Nat.add_comm]

/-- Nothing is spent by a deed that neither updates nor sends anything. -/
theorem aside (does : (next z).Does z deed z') (late : deed.IsLate c) (noUpdate : deed.isUpdate = false)
    (noTask : deed.sent? = none) (h : Spends c next z' n sent z'') : Spends c next z n sent z'' := by
  have hstep := h.step does late
  rwa [show updatesIn [deed] = 0 by simp [updatesIn, noUpdate], show sentIn [deed] = [] by simp [sentIn, noTask],
    Nat.zero_add, List.nil_append] at hstep

theorem trans (h : Spends c next z n sent z') (h' : Spends c next z' n' sent' z'') :
    Spends c next z (n + n') (sent ++ sent') z'' := by
  obtain ⟨deeds, hcourse, rfl, rfl⟩ := h
  obtain ⟨more, hmore, rfl, rfl⟩ := h'
  exact ⟨deeds ++ more, hcourse.append hmore, updatesIn_append .., sentIn_append ..⟩

/-- What a part of a machine can do the machine can do. -/
theorem lift {f : σ → τ} (hf : ∀ z deed z', (next z).Does z deed z' → (next' (f z)).Does (f z) deed (f z'))
    (h : Spends c next z n sent z') : Spends c next' (f z) n sent (f z') := by
  obtain ⟨deeds, hcourse, rfl, rfl⟩ := h
  refine ⟨deeds, ?_, rfl, rfl⟩
  induction hcourse with
  | rest z => exact .rest _
  | step does late _ ih => exact .step (hf _ _ _ does) late ih

end Spends

theorem Retirement.spends_all {task : Task} {stage : Retirement} (goesOn : ∀ moved, stage ≠ .done moved) :
    Spends c (Retirement.next s task) stage stage.begun [] (.done true) := by
  have hannouncing (now : Timestamp) : Spends c (Retirement.next s task) (.announcing now) 0 [] (.done true) :=
    .aside .notify trivial rfl rfl (.rest _)
  have hdating : Spends c (Retirement.next s task) .dating 0 [] (.done true) :=
    .aside (.readWallClock default) trivial rfl rfl (hannouncing default)
  have hcounting : Spends c (Retirement.next s task) .counting 0 [] (.done true) :=
    .aside .record trivial rfl rfl hdating
  cases stage with
  | updating =>
    have hdoes : (next s task .updating).Does .updating (.ask (.updateStatus task.id (update s task)) (.ok ()))
        .counting := .ask (r := .updateStatus task.id (update s task)) (.ok ())
    exact hcounting.step hdoes trivial
  | counting => exact hcounting
  | dating => exact hdating
  | announcing now => exact hannouncing now
  | done moved => exact absurd rfl (goesOn moved)

/-! #### By a poll -/

namespace Poll

theorem spends_retiring (task : Task) {stage : Retirement} (rest : List Task) (count : Nat)
    (goesOn : ∀ moved, stage ≠ .done moved) :
    Spends c (next s) (retiring task rest count stage) stage.begun [] (onward count rest) := by
  have hall : Spends c (Retirement.next s task) stage stage.begun [] (.done true) := Retirement.spends_all goesOn
  have hpoll : Spends c (next s) (afterRetirement task rest count stage) stage.begun [] (onward count rest) := by
    refine hall.lift fun z deed z' hdoes => ?_
    cases z with
    | done moved => cases hdoes
    | _ => exact hdoes.map (afterRetirement task rest count)
  cases stage with
  | done moved => exact absurd rfl (goesOn moved)
  | _ => exact hpoll

/-- A poll may send the task that is on its way into the channel. -/
theorem spends_sending (task : Task) (rest : List Task) (count : Nat) :
    Spends c (next s) (enqueueing task rest count .sending) 0 [task] (onward (count + 1) rest) := by
  have hsend : ((enqueueing task rest count .sending).next s).Does (enqueueing task rest count .sending) (.send task)
      (counting rest (count + 1)) := .send
  have hcounting : Spends c (next s) (counting rest (count + 1)) 0 [] (onward (count + 1) rest) :=
    .aside .record trivial rfl rfl (.rest _)
  exact hcounting.step hsend trivial

theorem spends_tracking (task : Task) (rest : List Task) (count : Nat) :
    Spends c (next s) (enqueueing task rest count .tracking) 0 [task] (onward (count + 1) rest) :=
  .aside (.track default) trivial rfl rfl (spends_sending task rest count)

/-- A poll that goes on may retire every untracked task that has used up its attempts, and send the others. -/
theorem spends_onward (s : Settings) (c : Scene) (count : Nat) (rest : List Task) :
    ∃ result, Spends c (next s) (onward count rest) (rest.countP (c.retires s))
      (rest.filter (c.hands s)) (.done result) := by
  -- the queue is asked for one task after another and tells what the scene has it track
  induction rest generalizing count with
  | nil => exact ⟨.ok count, .rest _⟩
  | cons task rest ih =>
    have hlook (tracked : Bool) : ((checking task rest count).next s).Does (checking task rest count)
        (.look task.id tracked) (afterCheck s task rest count tracked) := .look tracked
    cases htracked : c.tracked task.id with
    | true =>
      obtain ⟨result, hrest⟩ := ih count
      rw [List.countP_cons_of_neg (by simp [Scene.retires, htracked]),
        List.filter_cons_of_neg (by simp [Scene.hands, htracked])]
      exact ⟨result, .aside (hlook true) (fun _ => rfl) rfl rfl hrest⟩
    | false =>
      have hlate : (Deed.look task.id false).IsLate c := fun h => by rw [htracked] at h; cases h
      have hfree := hlook false
      by_cases hspent : s.maxAttempts ≤ task.attempts
      · obtain ⟨result, hrest⟩ := ih count
        rw [List.countP_cons_of_pos (by simp [Scene.retires, htracked, hspent]), Nat.add_comm,
          List.filter_cons_of_neg (by simp [Scene.hands, hspent])]
        rw [show afterCheck s task rest count false = retiring task rest count .updating from if_pos hspent] at hfree
        have hretiring : Spends c (next s) (retiring task rest count .updating) 1 [] (onward count rest) :=
          spends_retiring task rest count fun _ h => by cases h
        exact ⟨result, .aside hfree hlate rfl rfl (hretiring.trans hrest)⟩
      · obtain ⟨result, hrest⟩ := ih (count + 1)
        rw [List.countP_cons_of_neg (by simp [Scene.retires, hspent]),
          List.filter_cons_of_pos (by simpa [Scene.hands, htracked] using hspent)]
        rw [show afterCheck s task rest count false = enqueueing task rest count .tracking from if_neg hspent] at hfree
        have hall := (spends_tracking task rest count).trans hrest
        rw [Nat.zero_add] at hall
        exact ⟨result, .aside hfree hlate rfl rfl hall⟩

/-- A poll may go on so that all of what was left to it is spent. -/
theorem spends_all (s : Settings) (c : Scene) (poll : Poll) :
    ∃ poll', Spends c (next s) poll (poll.mayBegin s c + poll.begun) (poll.maySend s c) poll' := by
  have hlisting : ∃ poll', Spends c (next s) listing (c.listed.countP (c.retires s)) (c.listed.filter (c.hands s))
      poll' := by
    obtain ⟨result, hts⟩ := spends_onward s c 0 c.listed
    have hlist : (next s listing).Does listing (.ask (.listByStatus .pending) (.ok c.listed)) (onward 0 c.listed) :=
      .ask (r := .listByStatus .pending) (.ok c.listed)
    exact ⟨_, .aside hlist rfl rfl rfl hts⟩
  cases poll with
  | starting =>
    obtain ⟨poll', h⟩ := hlisting
    exact ⟨poll', .aside .record trivial rfl rfl h⟩
  | listing => exact hlisting
  | failing e => exact ⟨_, .rest _⟩
  | checking task rest count =>
    obtain ⟨result, h⟩ := spends_onward s c count (task :: rest)
    exact ⟨_, h⟩
  | retiring task rest count stage =>
    by_cases hdone : ∃ moved, stage = .done moved
    · obtain ⟨moved, rfl⟩ := hdone
      exact ⟨_, .rest _⟩
    · rw [not_exists] at hdone
      obtain ⟨result, h⟩ := spends_onward s c count rest
      have hall := (spends_retiring task rest count hdone).trans h
      rw [Nat.add_comm, mayBegin, maySend, unseen_retiring hdone]
      exact ⟨_, hall⟩
  | enqueueing task rest count stage =>
    obtain ⟨result, h⟩ := spends_onward s c (count + 1) rest
    cases stage with
    | tracking => exact ⟨_, Nat.add_comm .. ▸ (spends_tracking task rest count).trans h⟩
    | sending => exact ⟨_, Nat.add_comm .. ▸ (spends_sending task rest count).trans h⟩
    | withdrawing => exact ⟨_, .rest _⟩
    | done sent => exact ⟨_, .rest _⟩
  | counting rest count =>
    obtain ⟨result, h⟩ := spends_onward s c count rest
    exact ⟨_, .aside .record trivial rfl rfl h⟩
  | done result => exact ⟨_, .rest _⟩

end Poll

/-! #### By a pass and by the rest of a tick -/

namespace Reclaim

variable {threshold : Duration}

theorem spends_retiring (now : Timestamp) (task : Task) (rest : List Task) (count : Nat) {stage : Retirement}
    (goesOn : ∀ moved, stage ≠ .done moved) :
    Spends c (next s threshold) (retiring now task rest count stage) stage.begun [] (onward now (count + 1) rest) := by
  have hall : Spends c (Retirement.next s task) stage stage.begun [] (.done true) := Retirement.spends_all goesOn
  have hpass : Spends c (next s threshold) (afterRetirement now task rest count stage) stage.begun []
      (onward now (count + 1) rest) := by
    refine hall.lift fun z deed z' hdoes => ?_
    cases z with
    | done moved => cases hdoes
    | _ => exact hdoes.map (afterRetirement now task rest count)
  cases stage with
  | done moved => exact absurd rfl (goesOn moved)
  | _ => exact hpass

theorem spends_onward (now : Timestamp) (count : Nat) (rest : List Task) :
    Spends c (next s threshold) (onward now count rest) 0 [] (.done (.ok count)) := by
  cases rest with
  | nil => exact .rest _
  | cons task rest => exact .aside (.see true) rfl rfl rfl (.rest _)

/-- A pass may end after all of what was left to it is spent. -/
theorem spends_all (s : Settings) (c : Scene) (threshold : Duration) {pass : Reclaim}
    (goesOn : pass.isOver = false) :
    ∃ result, Spends c (next s threshold) pass (pass.mayBegin c threshold + pass.begun) [] (.done result) := by
  cases pass with
  | listing => exact ⟨_, .aside (.drop rfl) trivial rfl rfl (.rest _)⟩
  | dating tasks => exact ⟨_, .aside (.readWallClock default) trivial rfl rfl (spends_onward ..)⟩
  | guarding now task rest count => exact ⟨_, spends_onward now count (task :: rest)⟩
  | checking now task rest count =>
    by_cases hstale : (!c.tracked task.id && isStale threshold now task) = true
    · obtain ⟨hfree, hold⟩ := Bool.and_eq_true_iff.1 hstale
      have hlook : (next s threshold (checking now task rest count)).Does (checking now task rest count)
          (.look task.id false) (retiring now task rest count .updating) := by
        have hdoes : (next s threshold (checking now task rest count)).Does (checking now task rest count)
          (.look task.id false) _ := .look false
        simpa [hold] using hdoes
      have hlate : (Deed.look task.id false).IsLate c := fun h => by rw [h] at hfree; cases hfree
      have hretiring : Spends c (next s threshold) (retiring now task rest count .updating) 1 []
          (onward now (count + 1) rest) := spends_retiring now task rest count fun _ h => by cases h
      rw [show (checking now task rest count).mayBegin c threshold = 1 from if_pos hstale]
      exact ⟨_, .aside hlook hlate rfl rfl (hretiring.trans (spends_onward ..))⟩
    · rw [show (checking now task rest count).mayBegin c threshold = 0 from if_neg hstale]
      exact ⟨_, .aside (.look true) (fun _ => rfl) rfl rfl (spends_onward ..)⟩
  | retiring now task rest count stage =>
    have hdone (moved : Bool) : stage ≠ .done moved := by
      rintro rfl
      cases goesOn
    have hretiring : Spends c (next s threshold) (retiring now task rest count stage) stage.begun []
        (onward now (count + 1) rest) := spends_retiring now task rest count hdone
    exact ⟨_, Nat.add_comm .. ▸ hretiring.trans (spends_onward ..)⟩
  | done result => cases goesOn

end Reclaim

/-- A tick may go on so that all of what was left to it is spent. -/
theorem Dispatcher.spends_all (s : Settings) (c : Scene) (d : Dispatcher) :
    ∃ d', Spends c (next s) d (d.mayBegin s c + d.begun) (d.maySend s c) d' := by
  have hpolling (due : Instant) (poll : Poll) :
      ∃ d', Spends c (next s) (polling due poll) (poll.mayBegin s c + poll.begun) (poll.maySend s c) d' := by
    obtain ⟨poll', hall⟩ := Poll.spends_all s c poll
    have hloop : Spends c (next s) (afterPoll due poll) (poll.mayBegin s c + poll.begun) (poll.maySend s c)
        (afterPoll due poll') := by
      refine hall.lift fun z deed z' hdoes => ?_
      cases z with
      | done result => cases hdoes
      | _ => exact hdoes.map (afterPoll due)
    cases poll with
    | done result => exact ⟨_, .rest _⟩
    | _ => exact ⟨_, hloop⟩
  cases d with
  | reclaiming due threshold pass =>
    cases hover : pass.isOver with
    | true =>
      have hnothing : pass.mayBegin c threshold + pass.begun = 0 := by
        cases pass with
        | retiring now task rest count stage =>
          cases stage with
          | done moved => rfl
          | _ => cases hover
        | done result => rfl
        | _ => cases hover
      simp only [mayBegin, maySend, begun, hover, if_true, Nat.add_zero, hnothing]
      exact ⟨_, .rest _⟩
    | false =>
      obtain ⟨result, hall⟩ := Reclaim.spends_all s c threshold hover
      have hloop : Spends c (next s) (afterReclaim due threshold pass) (pass.mayBegin c threshold + pass.begun) []
          (polling due .starting) := by
        refine hall.lift fun z deed z' hdoes => ?_
        cases z with
        | done result => cases hdoes
        | _ => exact hdoes.map (afterReclaim due threshold)
      have hstart : afterReclaim due threshold pass = reclaiming due threshold pass := by
        cases pass with
        | done result => cases hover
        | _ => rfl
      obtain ⟨d', hrest⟩ := hpolling due .starting
      rw [hstart] at hloop
      have hend := hloop.trans hrest
      refine ⟨d', ?_⟩
      simp only [mayBegin, maySend, begun, hover, Bool.false_eq_true, if_false]
      rw [Nat.add_right_comm]
      exact hend
  | polling due poll => exact hpolling due poll
  | _ => exact ⟨_, .rest _⟩

/-- However a dispatcher goes on to the end of its tick after its token has fired, it makes one update at most beyond
that under way and sends no task, exactly if at most one of the tasks that it comes to yet is to be retired and none is
to be handed over. -/
theorem Dispatcher.keeps_iff (s : Settings) (c : Scene) (d : Dispatcher) :
    (∀ deeds d', Course c (next s) d deeds d' → updatesIn deeds ≤ d.begun + 1 ∧ sentIn deeds = []) ↔
      d.mayBegin s c ≤ 1 ∧ d.maySend s c = [] := by
  constructor
  · -- the course that spends everything keeps to the bounds as well
    intro h
    obtain ⟨d', deeds, hcourse, hupdates, hsent⟩ := d.spends_all s c
    obtain ⟨hone, hnone⟩ := h deeds d' hcourse
    exact ⟨by omega, hsent ▸ hnone⟩
  · intro h deeds d' hcourse
    obtain ⟨hupdates, hsent⟩ := hcourse.within
    rw [h.2] at hsent
    exact ⟨by omega, List.sublist_nil.1 hsent⟩

end Backlog.Dispatch

import Backlog.Proofs.Queue.Handover

/-!
# Withdrawing a task

Whoever puts a task into a queue until a token fires enters it in the register first, and strikes it off again when the
token has fired.  In the meantime others send and receive, and enter and strike off tasks, this one among them.  Beside
every run goes what the queue would hold if the others alone had done what they have done.

Key facts: a withdrawn call has left the channel alone, and it has struck off whatever entry there is of its task, its
own or not; so the queue is left as the others made it if and only if they have no entry of this task
(`Handover.withdrawn_strikes_off`).
-/

namespace Backlog

open Dispatch Simulation

/-! ### What a queue holds -/

/-- The tasks in the channel of a queue, and the entries of its register. -/
structure Contents where
  items : List Task
  entries : List QueueEntry
deriving DecidableEq

def Queue.contents (q : Queue) : Contents := ⟨q.channel.items, q.entries⟩

namespace Contents

/-- Without the entries of a task. -/
def without (c : Contents) (id : Int) : Contents := { c with entries := c.entries.filter fun e => e.task.id ≠ id }

/-- With an entry, which replaces that of the same task. -/
def enter (c : Contents) (e : QueueEntry) : Contents :=
  { c with entries := (c.entries.filter fun d => d.task.id ≠ e.task.id) ++ [e] }

/-- What is held after a deed; an entry that is made gets the next number. -/
def after (c : Contents) (next : Nat) : Deed → Contents
  | .track now task => c.enter ⟨task, next, now⟩
  | .untrack id _ => c.without id
  | .send task => { c with items := c.items ++ [task] }
  | .take _ => { c with items := c.items.tail }
  | _ => c

theorem without_comm (c : Contents) (id j : Int) : (c.without j).without id = (c.without id).without j := by
  simp only [without, List.filter_filter, Bool.and_comm]

/-- Apart from one task it makes no difference whether that task was struck off before a deed. -/
theorem without_after (c : Contents) (next : Nat) (deed : Deed) (id : Int) :
    (c.after next deed).without id = ((c.without id).after next deed).without id := by
  cases deed with
  | track now task => simp only [after, enter, without, List.filter_append, List.filter_filter, Bool.and_comm,
      Bool.and_self_left]
  | untrack j tracked =>
    show (c.without j).without id = ((c.without id).without j).without id
    rw [without_comm c id j, without_comm (c.without id) id j]
    simp [without]
  | _ => simp [after, without]

theorem without_enter (c : Contents) (e : QueueEntry) : (c.enter e).without e.task.id = c.without e.task.id := by
  simp [enter, without]

theorem without_eq_self_iff (c : Contents) (id : Int) : c.without id = c ↔ ∀ e ∈ c.entries, e.task.id ≠ id := by
  unfold without
  constructor
  · intro h e he
    have hentries := congrArg Contents.entries h
    simpa using List.filter_eq_self.1 hentries e he
  · intro h
    rw [List.filter_eq_self.2 fun e he => by simpa using h e he]

end Contents

/-- A queue after a deed holds what the deed says. -/
theorem contents_onQueue {deed : Deed} {t : Ticket} {cancelled : Bool} {q : Queue} (fits : deed.Fits t cancelled q) :
    (deed.onQueue t q).contents = q.contents.after q.nextSequence deed := by
  cases deed with
  | join => exact congrArg (Contents.mk · q.entries) (Channel.items_join _ _)
  | leave => exact congrArg (Contents.mk · q.entries) (Channel.items_leave _ _)
  | take task =>
    obtain ⟨c, hc, hafter⟩ := fits.exists_takeFor
    have hitems := (Channel.takeFor_spec hc).1
    rw [hafter]
    show Contents.mk c.items q.entries = ⟨q.channel.items.tail, q.entries⟩
    rw [hitems, List.tail_cons]
  | _ => rfl

namespace Handover

/-! ### Turns -/

/-- A step by whose turn it is, if it is that of a caller, with what the step does to the contents of the queue. -/
inductive Turn (s : Settings) (x : Handover) :
    Option Ticket → (Contents → Contents) → Handover → List (Ticket × Job) → Prop where
  | call {t job} (token : Nat) (new : x.parties t = .absent) (call : IsCall job) :
    Turn s x (some t) id (x.put t (.calling token job) x.queue) []
  | act {t token job deed job'} (calls : x.parties t = .calling token job)
    (does : (job.next s).Does job deed job') (fits : deed.Fits t (x.fired token) x.queue) :
    Turn s x (some t) (fun c => c.after x.queue.nextSequence deed)
      (x.put t (.calling token job') (deed.onQueue t x.queue)) (if isOver job' then [(t, job')] else [])
  | drop {t token job} (calls : x.parties t = .calling token job) (waits : isOver job = false) :
    Turn s x (some t) id (x.put t .gone { x.queue with channel := withdraw x.queue.channel t job }) []
  | fire (token : Nat) : Turn s x none id { x with fired := fun k => x.fired k || k == token } []
  | strike (j : Int) : Turn s x none (fun c => c.without j) { x with queue := (x.queue.untrack j).2 } []

section

variable {s : Settings} {x x₀ y : Handover} {es : List (Ticket × Job)} {t : Ticket} {token : Nat} {task : Task}
  {who : Option Ticket} {f : Contents → Contents} {c : Contents}

theorem Turn.step (h : Turn s x who f y es) : Step s x y es := by
  cases h with
  | call token new call => exact .call token new call
  | act calls does fits => exact .act calls does fits
  | drop calls waits => exact .drop calls waits
  | fire token => exact .fire token
  | strike j => exact .strike j

theorem exists_turn (h : Step s x y es) : ∃ who f, Turn s x who f y es := by
  cases h with
  | call token new call => exact ⟨_, _, .call token new call⟩
  | act calls does fits => exact ⟨_, _, .act calls does fits⟩
  | drop calls waits => exact ⟨_, _, .drop calls waits⟩
  | fire token => exact ⟨_, _, .fire token⟩
  | strike j => exact ⟨_, _, .strike j⟩

/-- What a turn does to the contents of a queue is what becomes of them. -/
theorem Turn.contents (h : Turn s x who f y es) : y.queue.contents = f x.queue.contents := by
  cases h with
  | act calls does fits => exact contents_onQueue fits
  | @drop t token job calls waits =>
    show Contents.mk (withdraw x.queue.channel t job).items x.queue.entries = _
    unfold withdraw
    split
    · exact congrArg (Contents.mk · x.queue.entries) (Channel.items_leave _ _)
    · rfl
    · rfl
  | _ => rfl

/-- Nobody's party is changed by the turn of another. -/
theorem Turn.parties (h : Turn s x who f y es) (other : who ≠ some t) : y.parties t = x.parties t := by
  have hput {u : Ticket} (hne : some u ≠ some t) (party : Party) (q : Queue) :
      (x.put u party q).parties t = x.parties t := if_neg fun heq => hne (congrArg some heq.symm)
  cases h with
  | call token new call => exact hput other _ _
  | act calls does fits => exact hput other _ _
  | drop calls waits => exact hput other _ _
  | fire token => rfl
  | strike j => rfl

theorem Turn.without (h : Turn s x who f y es) (c : Contents) (id : Int) :
    (f c).without id = (f (c.without id)).without id := by
  cases h with
  | act calls does fits => exact c.without_after _ _ id
  | strike j => exact c.without_after 0 (.untrack j true) id
  | _ => simp [Contents.without]

end

/-! ### Runs beside a call -/

/-- What can come of a handover, with what the queue would hold if the turns of one party had done nothing to it. -/
inductive Alongside (s : Settings) (t : Ticket) (x₀ : Handover) : Handover → Contents → Prop where
  | start : Alongside s t x₀ x₀ x₀.queue.contents
  | own {x c f y es} (h : Alongside s t x₀ x c) (turn : Turn s x (some t) f y es) : Alongside s t x₀ y c
  | other {x c who f y es} (h : Alongside s t x₀ x c) (turn : Turn s x who f y es) (other : who ≠ some t) :
    Alongside s t x₀ y (f c)

variable {s : Settings} {x x₀ y : Handover} {es : List (Ticket × Job)} {t : Ticket} {token : Nat} {task : Task}
  {who : Option Ticket} {f : Contents → Contents} {c : Contents}

/-- Every step goes on with a run. -/
theorem Alongside.exists_next (h : Alongside s t x₀ x c) (next : Step s x y es) : ∃ c', Alongside s t x₀ y c' := by
  obtain ⟨who, f, turn⟩ := exists_turn next
  by_cases hwho : who = some t
  · subst hwho
    exact ⟨c, h.own turn⟩
  · exact ⟨f c, h.other turn hwho⟩

/-- What a queue holds at a stage of a call, against what the others have left: the same before the task is entered,
and the same apart from the entries of the task until the call is over. -/
private def Agrees (task : Task) (held others : Contents) : Enqueue → Prop
  | .tracking => held = others
  | .sending => held.without task.id = others.without task.id
  | .withdrawing => held.without task.id = others.without task.id
  | .done _ => True

/-- A call that comes to its end with its cancellation strikes its task off in this step. -/
private theorem Agrees.act {held : Contents} {stage : Enqueue} (h : Agrees task held c stage) {deed : Deed} {job' : Job}
    (does : ((Job.enqueue true task stage).next s).Does (.enqueue true task stage) deed job') (next : Nat) :
    ∃ stage', job' = .enqueue true task stage' ∧ Agrees task (held.after next deed) c stage' ∧
      (stage' = .done false → held.after next deed = c.without task.id) := by
  cases stage with
  | tracking =>
    cases does with
    | track now =>
      refine ⟨_, rfl, ?_, nofun⟩
      rw [show held = c from h]
      exact c.without_enter _
  | sending =>
    cases does with
    | join => exact ⟨_, rfl, h, nofun⟩
    | send => exact ⟨_, rfl, trivial, nofun⟩
    | leave interrupted =>
      cases interrupted
      exact ⟨_, rfl, h, nofun⟩
  | withdrawing =>
    cases does with
    | untrack tracked => exact ⟨_, rfl, trivial, fun _ => h⟩
  | done sent => cases does

/-- The turn of another keeps the agreement, and so does what it does to both sides. -/
private theorem Agrees.other {held : Contents} {stage : Enqueue} (h : Agrees task held c stage)
    (turn : Turn s x who f y es) : Agrees task (f held) (f c) stage := by
  cases stage with
  | tracking => exact congrArg f h
  | sending | withdrawing =>
    show (f held).without task.id = (f c).without task.id
    rw [turn.without, show held.without task.id = _ from h, ← turn.without]
  | done sent => trivial

/-- Whoever calls with a token is at a stage of the call, or was dropped. -/
private inductive Stands (t : Ticket) (token : Nat) (task : Task) (x : Handover) (c : Contents) : Prop where
  | calling (stage : Enqueue) (party : x.parties t = .calling token (.enqueue true task stage))
    (agrees : Agrees task x.queue.contents c stage)
  | gone (party : x.parties t = .gone)

private theorem Stands.other (h : Stands t token task x c) (turn : Turn s x who f y es) (other : who ≠ some t) :
    Stands t token task y (f c) := by
  have hparty := turn.parties other
  cases h with
  | calling stage party agrees =>
    exact .calling stage (hparty.trans party) (turn.contents ▸ agrees.other turn)
  | gone party => exact .gone (hparty.trans party)

private theorem Stands.own (h : Stands t token task x c) (turn : Turn s x (some t) f y es) :
    Stands t token task y c ∧
      ((t, .enqueue true task (.done false)) ∈ es → y.queue.contents = c.without task.id) := by
  have hcontents := turn.contents
  cases turn with
  | call token' new call =>
    cases h with
    | calling stage party => simp [new] at party
    | gone party => simp [new] at party
  | drop calls waits => exact ⟨.gone (if_pos rfl), nofun⟩
  | @act _ token' job deed job' calls does fits =>
    cases h with
    | gone party => simp [party] at calls
    | calling stage party agrees =>
      rw [party] at calls
      cases calls
      obtain ⟨stage', rfl, hagrees, hcancelled⟩ := agrees.act does x.queue.nextSequence
      refine ⟨.calling stage' (if_pos rfl) (hcontents ▸ hagrees), fun hmem => hcontents.trans (hcancelled ?_)⟩
      split at hmem
      · simpa [eq_comm] using hmem
      · cases hmem

private theorem Alongside.stands (calls : x₀.parties t = .calling token (.enqueue true task .tracking))
    (h : Alongside s t x₀ x c) : Stands t token task x c := by
  induction h with
  | start => exact .calling .tracking calls rfl
  | own _ turn ih => exact (ih.own turn).1
  | other _ turn other ih => exact ih.other turn other

/-- Nobody is told that the call of another has come to its end. -/
theorem Turn.ended (h : Turn s x who f y es) {job : Job} (mem : (t, job) ∈ es) : who = some t := by
  cases h with
  | act calls does fits =>
    split at mem
    · cases List.mem_singleton.1 mem
      rfl
    · cases mem
  | _ => cases mem

/-- Whoever has left the channel comes to the end of its call. -/
theorem exists_cancelled (s : Settings) (party : x.parties t = .calling token (.enqueue true task .withdrawing)) :
    ∃ y, Step s x y [(t, .enqueue true task (.done false))] ∧ y.queue.contents = x.queue.contents.without task.id :=
  ⟨_, .act party (.untrack _) rfl, rfl⟩

/-- **Main theorem.** Whatever a queue holds when a task is put into it with a token, and whatever happens then: if the
call comes to its end with its cancellation, the queue holds in that moment what the others have left there, without
any entry of the task.  So nothing is left of the call, but it is as if it had not been made if and only if the others
have left no entry of the task.  And as long as the call waits for room and its token has fired, it can come to this
end. -/
theorem withdrawn_strikes_off (calls : x₀.parties t = .calling token (.enqueue true task .tracking)) :
    (∀ x c, Alongside s t x₀ x c →
      (∀ y es, Step s x y es → ∃ c', Alongside s t x₀ y c' ∧
        ((t, .enqueue true task (.done false)) ∈ es →
          c' = c ∧ y.queue.contents = c.without task.id ∧ y.queue.contains task.id = false ∧
            (y.queue.contents = c ↔ ∀ e ∈ c.entries, e.task.id ≠ task.id))) ∧
      (x.parties t = .calling token (.enqueue true task .sending) → x.fired token = true →
        ∃ y z, Step s x y [] ∧ Step s y z [(t, .enqueue true task (.done false))])) := by
  intro x c run
  have stands := run.stands calls
  refine ⟨fun y es next => ?_, fun party fired => ?_⟩
  · obtain ⟨who, f, turn⟩ := exists_turn next
    by_cases hwho : who = some t
    · subst hwho
      refine ⟨c, run.own turn, fun mem => ?_⟩
      have hcontents := (stands.own turn).2 mem
      refine ⟨rfl, hcontents, ?_, by rw [hcontents, c.without_eq_self_iff]⟩
      have hentries : y.queue.entries = _ := congrArg Contents.entries hcontents
      rw [Queue.contains, hentries]
      simp [Contents.without]
    · exact ⟨f c, run.other turn hwho, fun mem => absurd (turn.ended mem) hwho⟩
  · have left := Step.act (s := s) party (.leave rfl) fired
    obtain ⟨y, ended, -⟩ := exists_cancelled (x := x.put t (.calling token (.enqueue true task .withdrawing))
      (Deed.leave.onQueue t x.queue)) s (if_pos rfl)
    exact ⟨_, y, left, ended⟩

/-- A queue with room for one task, which is in the channel and in the register. -/
def occupied : Queue := ⟨⟨1, [numbered 1], [], [], []⟩, [⟨numbered 1, 0, default⟩], 1⟩

/-- Somebody begins to put this task into this queue again. -/
private theorem reaches_occupied : ∃ x es, Reaches .standard 0 x es ∧
    x.parties 1 = .calling 7 (.enqueue true (numbered 1) .tracking) ∧ x.queue = occupied := by
  have h := (Reaches.start : Reaches .standard 0 _ _).step (.call (t := 0) 0 rfl (.add false (numbered 1)))
  have h := h.step (.act (t := 0) rfl (.track default) trivial)
  have h := h.step (.act (t := 0) rfl .join ⟨rfl, List.not_mem_nil⟩)
  have h := h.step (.act (t := 0) rfl .send rfl)
  have h := h.step (.call (t := 1) 7 rfl (.add true (numbered 1)))
  exact ⟨_, _, h, rfl, rfl⟩

/-- It finds no room, and its token fires; nobody else does anything. -/
private theorem alongside_occupied {x₀ : Handover}
    (party : x₀.parties 1 = .calling 7 (.enqueue true (numbered 1) .tracking)) (queue : x₀.queue = occupied) :
    ∃ x, Alongside .standard 1 x₀ x occupied.contents ∧
      x.parties 1 = .calling 7 (.enqueue true (numbered 1) .withdrawing) ∧
      x.queue.contents = ⟨[numbered 1], [⟨numbered 1, 1, default⟩]⟩ := by
  obtain ⟨q, fired, parties⟩ := x₀
  obtain rfl : q = occupied := queue
  have run : Alongside .standard 1 ⟨occupied, fired, parties⟩ ⟨occupied, fired, parties⟩ occupied.contents := .start
  have run := run.own (.act party (.track default) trivial)
  have run := run.own (.act (t := 1) rfl .join ⟨rfl, List.not_mem_nil⟩)
  have run := run.other (.fire 7) nofun
  have run := run.own (.act (t := 1) rfl (.leave rfl) (Bool.or_true _))
  exact ⟨_, run, rfl, rfl⟩

/-- The call has struck off the task that is in the channel. -/
theorem withdrawn_strikes_off_occupied : ∃ x₀ x y, x₀.parties 1 = .calling 7 (.enqueue true (numbered 1) .tracking) ∧
    Alongside .standard 1 x₀ x occupied.contents ∧ Step .standard x y [(1, .enqueue true (numbered 1) (.done false))] ∧
    y.queue.contents = occupied.contents.without 1 ∧ y.queue.contains 1 = false := by
  obtain ⟨x₀, -, -, party, queue⟩ := reaches_occupied
  obtain ⟨x, run, withdrawing, -⟩ := alongside_occupied party queue
  obtain ⟨y, next, -⟩ := exists_cancelled .standard withdrawing
  obtain ⟨c, -, ended⟩ := (withdrawn_strikes_off party x _ run).1 y _ next
  obtain ⟨-, hcontents, hcontains, -⟩ := ended (List.mem_singleton.2 rfl)
  exact ⟨x₀, x, y, party, run, next, hcontents, hcontains⟩

/-- In a queue that can come about, a task is in the channel and in the register; it is put into the queue again and
cancelled, and is in the channel still, but no longer in the register. -/
theorem occupied_not_left_as_it_was : ∃ x₀ es x y, Reaches .standard 0 x₀ es ∧
    x₀.parties 1 = .calling 7 (.enqueue true (numbered 1) .tracking) ∧ x₀.queue = occupied ∧
    Alongside .standard 1 x₀ x occupied.contents ∧ Step .standard x y [(1, .enqueue true (numbered 1) (.done false))] ∧
    y.queue.channel.items = [numbered 1] ∧ occupied.contains 1 = true ∧ y.queue.contains 1 = false ∧
    y.queue.contents ≠ occupied.contents := by
  obtain ⟨x₀, es, h, party, queue⟩ := reaches_occupied
  obtain ⟨x, run, withdrawing, held⟩ := alongside_occupied party queue
  obtain ⟨y, next, left⟩ := exists_cancelled .standard withdrawing
  have hleft : y.queue.contents = ⟨[numbered 1], []⟩ := by rw [left, held]; rfl
  have entries : y.queue.entries = [] := congrArg Contents.entries hleft
  refine ⟨x₀, es, x, y, h, party, queue, run, next, congrArg Contents.items hleft, rfl, ?_, ?_⟩
  · rw [Queue.contains, entries]
    rfl
  · rw [hleft]
    decide

end Handover

end Backlog

import Backlog.Proofs.Dispatch.Crew

/-!
# Receipts

Every task that a worker receives gets a receipt, on which stands what the worker has counted of the task since.  A
receipt is in hand until the worker strikes the task off, or breaks down with it.

Key facts: a worker that strikes a task off has counted it in one of five ways (`Exit`, `Page.Turns.untrack`), whoever
has a task in hand has one receipt in hand (`Hand.of_turns`), and the counters of a worker's deeds can be read off the
receipts (`countP_onReceipts`).
-/

namespace Backlog.Dispatch

open Store

/-! ### Receipts -/

/-- What has become of a task that a worker has received. -/
inductive Fate where
  | held
  /-- The worker was done with it. -/
  | struckOff
  /-- The worker broke down with it in hand. -/
  | lost
deriving DecidableEq

/-- A task that a worker has received, and what the worker has counted of it, in this order. -/
structure Receipt where
  holder : Ticket
  task : Task
  counts : List Count
  fate : Fate

/-- How a worker can be done with a task. -/
inductive Exit where
  /-- The task had changed or vanished before it was claimed. -/
  | skipped
  /-- The task could not be claimed. -/
  | unclaimed
  /-- The token fired after the claim. -/
  | left
  /-- The task could not be completed. -/
  | dropped
  | completed (elapsed : Duration)
deriving DecidableEq

namespace Exit

/-- What is counted of a task that ends like this. -/
def counts : Exit → List Count
  | skipped => []
  | unclaimed => [.abandoned]
  | left => [.claimed]
  | dropped => [.claimed, .abandoned]
  | completed elapsed => [.claimed, .worked elapsed, .completed]

theorem counts_injective : Function.Injective counts := by
  intro e e' h
  cases e <;> cases e' <;> simp_all [counts]

end Exit

/-- What is counted of a task that a worker is done with: it has ended in one of the ways, and was left only if the
token has fired. -/
def Settled (cancelled : Bool) (counts : List Count) : Prop :=
  ∃ e : Exit, counts = e.counts ∧ (e = .left → cancelled = true)

namespace Receipt

variable {t t' : Ticket} {r : Receipt} {rs : List Receipt} {f : Receipt → Receipt} {count : Count}

def isHeldBy (t : Ticket) (r : Receipt) : Bool := decide (r.fate = .held ∧ r.holder = t)

def hasCounted (count : Count) (r : Receipt) : Bool := decide (count ∈ r.counts)

/-- The receipts after whoever has a ticket has written on the one in hand. -/
def amend (t : Ticket) (f : Receipt → Receipt) (rs : List Receipt) : List Receipt :=
  rs.map fun r => if r.isHeldBy t then f r else r

/-- Whoever has a ticket has this receipt in hand and no other. -/
def Sole (t : Ticket) (r : Receipt) (rs : List Receipt) : Prop :=
  r.isHeldBy t = true ∧ ∃ before after, rs = before ++ r :: after ∧ ∀ r' ∈ before ++ after, r'.isHeldBy t = false

theorem holder_of_isHeldBy (h : r.isHeldBy t = true) : r.holder = t := by
  simp only [isHeldBy, decide_eq_true_eq] at h
  exact h.2

theorem isHeldBy_of_holder_ne (h : r.holder ≠ t) : r.isHeldBy t = false := by
  simp [isHeldBy, h]

theorem amend_of_none (h : ∀ r ∈ rs, r.isHeldBy t = false) : amend t f rs = rs := by
  have hsame : amend t f rs = rs.map id := List.map_congr_left fun r hr => by simp [h r hr]
  rw [hsame, List.map_id]

/-- Whoever writes on its only receipt changes this one. -/
theorem Sole.exists_amend (h : Sole t r rs) :
    ∃ before after, rs = before ++ r :: after ∧ (∀ f, amend t f rs = before ++ f r :: after) ∧
      ∀ r' ∈ before ++ after, r'.isHeldBy t = false := by
  obtain ⟨hr, before, after, rfl, hothers⟩ := h
  refine ⟨before, after, rfl, fun f => ?_, hothers⟩
  have hbefore : amend t f before = before := amend_of_none fun r' hr' => hothers r' (List.mem_append_left _ hr')
  have hafter : amend t f after = after := amend_of_none fun r' hr' => hothers r' (List.mem_append_right _ hr')
  unfold amend at hbefore hafter ⊢
  rw [List.map_append, List.map_cons, hbefore, hafter, if_pos hr]

theorem Sole.eq_of_mem (h : Sole t r rs) {r' : Receipt} (hr' : r' ∈ rs) (held : r'.isHeldBy t = true) : r' = r := by
  obtain ⟨-, before, after, rfl, hothers⟩ := h
  rw [List.mem_append, List.mem_cons] at hr'
  rcases hr' with hb | rfl | ha
  · rw [hothers r' (List.mem_append_left _ hb)] at held
    cases held
  · rfl
  · rw [hothers r' (List.mem_append_right _ ha)] at held
    cases held

/-- What others write on their receipts, and what they receive, leaves this one in hand. -/
theorem Sole.amend_of_ne (h : Sole t r rs) (hne : t ≠ t') (hf : ∀ r, (f r).holder = r.holder) :
    Sole t r (amend t' f rs) := by
  obtain ⟨hr, before, after, rfl, hothers⟩ := h
  have hnot : r.isHeldBy t' = false := isHeldBy_of_holder_ne (by rw [holder_of_isHeldBy hr]; exact hne)
  refine ⟨hr, amend t' f before, amend t' f after, ?_, ?_⟩
  · simp [amend, hnot]
  · intro r' hr'
    rw [amend, amend, ← List.map_append] at hr'
    obtain ⟨r₀, hr₀, rfl⟩ := List.mem_map.1 hr'
    split
    · rename_i hheld
      exact isHeldBy_of_holder_ne (by rw [hf, holder_of_isHeldBy hheld]; exact hne.symm)
    · exact hothers r₀ hr₀

theorem Sole.append (h : Sole t r rs) (r' : Receipt) (hr' : r'.isHeldBy t = false) : Sole t r (rs ++ [r']) := by
  obtain ⟨hr, before, after, rfl, hothers⟩ := h
  refine ⟨hr, before, after ++ [r'], by simp, ?_⟩
  intro r'' hmem
  rw [← List.append_assoc] at hmem
  rcases List.mem_append.1 hmem with hold | hnew
  · exact hothers r'' hold
  · rw [List.mem_singleton.1 hnew]
    exact hr'

end Receipt

/-- The receipts after a deed of whoever has a ticket. -/
def Deed.onReceipts (t : Ticket) (rs : List Receipt) : Deed → List Receipt
  | take task => rs ++ [⟨t, task, [], .held⟩]
  | record count => Receipt.amend t (fun r => { r with counts := r.counts ++ [count] }) rs
  | untrack _ _ => Receipt.amend t (fun r => { r with fate := .struckOff }) rs
  | _ => rs

/-! ### Counters -/

/-- How often something has been counted; the working times are counted together. -/
def Tally.number (tally : Tally) : Count → Nat
  | .poll => tally.polls
  | .pollError => tally.pollErrors
  | .enqueued => tally.enqueued
  | .claimed => tally.claimed
  | .completed => tally.completed
  | .abandoned => tally.abandoned
  | .reclaimed => tally.reclaimed
  | .deadLettered => tally.deadLettered
  | .worked _ => tally.workCount

/-- What a worker counts of a task, but for its working time. -/
def Count.isMark : Count → Bool
  | claimed => true
  | completed => true
  | abandoned => true
  | _ => false

theorem Tally.number_record (tally : Tally) (count : Count) {mark : Count} (h : mark.isMark = true) :
    (tally.record count).number mark = tally.number mark + if mark = count then 1 else 0 := by
  cases mark <;> cases h <;> cases count <;> rfl

/-! ### What a worker counts -/

/-- Whether a step waits for something, so that a machine can break down there. -/
def Step.isWait {σ : Type} : Step σ → Bool
  | call _ _ _ _ => true
  | isTracked _ _ => true
  | track _ _ => true
  | untrack _ _ => true
  | send _ _ _ => true
  | receive _ _ => true
  | sleep _ _ _ => true
  | sleepUntil _ _ _ => true
  | _ => false

/-- Whether a deed leaves the counters, the tasks in the channel and the receipts as they are. -/
def Deed.isUnbooked : Deed → Bool
  | untrack _ _ => false
  | send _ => false
  | take _ => false
  | record _ => false
  | _ => true

theorem Deed.onTally_of_isUnbooked {deed : Deed} (h : deed.isUnbooked = true) (tally : Tally) :
    deed.onTally tally = tally := by
  cases deed <;> first
    | rfl
    | cases h

theorem Deed.onReceipts_of_isUnbooked {deed : Deed} (h : deed.isUnbooked = true) (t : Ticket) (rs : List Receipt) :
    deed.onReceipts t rs = rs := by
  cases deed <;> first
    | rfl
    | cases h

theorem Deed.items_of_isUnbooked {deed : Deed} (h : deed.isUnbooked = true) (t : Ticket) (q : Queue) :
    (deed.onQueue t q).channel.items = q.channel.items := by
  cases deed with
  | untrack id tracked => cases h
  | send task => cases h
  | take task => cases h
  | record count => cases h
  | join => exact Channel.items_join _ _
  | leave => exact Channel.items_leave _ _
  | _ => rfl

/-- What stands on the receipt that a worker has in hand. -/
inductive Page where
  | blank
  | claimed
  /-- The work is done and its time is counted. -/
  | worked
  /-- Nothing more is counted. -/
  | full
deriving DecidableEq

namespace Page

/-- What is counted on a page, given whether the token has fired. -/
def Shows (cancelled : Bool) (counts : List Count) : Page → Prop
  | blank => counts = []
  | claimed => counts = [.claimed]
  | worked => ∃ elapsed, counts = [.claimed, .worked elapsed]
  | full => Settled cancelled counts

/-- What a worker's deed makes of its task and the page: nothing is in hand before a task is taken and after it is
struck off. -/
inductive Turns : Option (Int × Page) → Deed → Option (Int × Page) → Prop where
  | take (task : Task) : Turns none (.take task) (some (task.id, blank))
  | claim (id : Int) : Turns (some (id, blank)) (.record .claimed) (some (id, claimed))
  | abandon (id : Int) : Turns (some (id, blank)) (.record .abandoned) (some (id, full))
  | leave (id : Int) : Turns (some (id, claimed)) .rouse (some (id, full))
  | drop (id : Int) : Turns (some (id, claimed)) (.record .abandoned) (some (id, full))
  | work (id : Int) (elapsed : Duration) : Turns (some (id, claimed)) (.record (.worked elapsed)) (some (id, worked))
  | complete (id : Int) : Turns (some (id, worked)) (.record .completed) (some (id, full))
  | skip (id : Int) (tracked : Bool) : Turns (some (id, blank)) (.untrack id tracked) none
  | release (id : Int) (tracked : Bool) : Turns (some (id, full)) (.untrack id tracked) none
  | unbooked {deed : Deed} (h : deed.isUnbooked = true) (hand : Option (Int × Page)) : Turns hand deed hand

end Page

namespace Worker

/-- The task that a worker has in hand, and the page of its receipt. -/
def hand? : Worker → Option (Int × Page)
  | idle => none
  | accepted task => some (task.id, .blank)
  | claiming task _ _ => some (task.id, .blank)
  | announcing task _ => some (task.id, .claimed)
  | drawing task _ => some (task.id, .claimed)
  | working task _ _ => some (task.id, .claimed)
  | finishing task _ => some (task.id, .claimed)
  | completing task _ _ _ => some (task.id, .claimed)
  | counting task _ => some (task.id, .worked)
  | closing task _ => some (task.id, .full)
  | releasing id => some (id, .full)
  | stopped => none

/-- Whether a worker has done its work on a task and has not counted the task as completed yet. -/
def isCounting : Worker → Bool
  | counting _ _ => true
  | _ => false

theorem held?_eq (w : Worker) : w.held? = w.hand?.map Prod.fst := by
  cases w <;> rfl

theorem isCounting_iff (w : Worker) : w.isCounting = true ↔ w.hand?.map Prod.snd = some .worked := by
  cases w <;> simp [isCounting, hand?]

variable {s : Settings} {deed : Deed} {w w' : Worker}

theorem turns_hand (h : (w.next s).Does w deed w') : Page.Turns w.hand? deed w'.hand? := by
  cases w with
  | idle =>
    cases h with
    | queueUp => exact .unbooked rfl _
    | take task => exact .take task
    | turnAway hy =>
      cases hy
      exact .unbooked rfl _
  | claiming task start tr =>
    cases tr with
    | done result =>
      cases result with
      | ok a =>
        cases h
        exact .claim task.id
      | error e =>
        simp only [next] at h
        split at h <;> cases h
        · exact .skip task.id _
        · exact .abandon task.id
    | pausing e failures backoff =>
      cases h with
      | rest => exact .unbooked rfl _
      | rouse hy =>
        cases hy
        exact .unbooked rfl _
    | _ =>
      cases h with
      | ask result => exact .unbooked rfl _
      | drop hy => cases hy
  | completing task start finish tr =>
    cases tr with
    | done result =>
      cases result with
      | ok a =>
        cases h
        exact .work task.id _
      | error e =>
        cases h
        exact .drop task.id
    | pausing e failures backoff =>
      cases h with
      | rest => exact .unbooked rfl _
      | rouse hy =>
        cases hy
        exact .unbooked rfl _
    | _ =>
      cases h with
      | ask result => exact .unbooked rfl _
      | drop hy => cases hy
  | working task start span =>
    cases h with
    | rest => exact .unbooked rfl _
    | rouse hy =>
      cases hy
      exact .leave task.id
  | counting task finish =>
    cases h
    exact .complete task.id
  | releasing id =>
    cases h with
    | untrack tracked => exact .release id tracked
  | stopped => cases h
  | _ =>
    cases h
    exact .unbooked rfl _

theorem isCounting_of_isWait (h : (w.next s).isWait = true) : w.isCounting = false := by
  cases w with
  | counting task finish => cases h
  | _ => rfl

end Worker

/-- Whoever has a ticket has the receipt of its task in hand and no other, and on it stands what its page says. -/
def Hand (t : Ticket) (cancelled : Bool) (rs : List Receipt) : Option (Int × Page) → Prop
  | none => ∀ r ∈ rs, r.isHeldBy t = false
  | some (id, page) => ∃ r, Receipt.Sole t r rs ∧ r.task.id = id ∧ page.Shows cancelled r.counts

namespace Page

variable {cancelled : Bool} {counts : List Count} {count : Count} {id : Int} {page : Page}
  {hand hand' : Option (Int × Page)} {deed : Deed} {t : Ticket} {q : Queue} {rs : List Receipt}

theorem Shows.of_cancel (h : page.Shows false counts) : page.Shows true counts := by
  cases page with
  | full =>
    obtain ⟨e, hcounts, -⟩ := h
    exact ⟨e, hcounts, fun _ => rfl⟩
  | _ => exact h

/-- Something is counted once at most on a page. -/
theorem Turns.record (h : Turns (some (id, page)) (.record count) hand') (shows : page.Shows cancelled counts) :
    count ∉ counts ∧ ∃ page', hand' = some (id, page') ∧ page'.Shows cancelled (counts ++ [count]) := by
  cases h with
  | claim =>
    obtain rfl : counts = [] := shows
    exact ⟨by simp, claimed, rfl, rfl⟩
  | abandon =>
    obtain rfl : counts = [] := shows
    exact ⟨by simp, full, rfl, .unclaimed, rfl, nofun⟩
  | drop =>
    obtain rfl : counts = [.claimed] := shows
    exact ⟨by simp, full, rfl, .dropped, rfl, nofun⟩
  | work _ elapsed =>
    obtain rfl : counts = [.claimed] := shows
    exact ⟨by simp, worked, rfl, elapsed, rfl⟩
  | complete =>
    obtain ⟨elapsed, rfl⟩ := shows
    exact ⟨by simp, full, rfl, .completed elapsed, rfl, nofun⟩
  | unbooked hsame => cases hsame

theorem Turns.untrack {tracked : Bool} {id' : Int} (h : Turns (some (id, page)) (.untrack id' tracked) hand')
    (shows : page.Shows cancelled counts) : hand' = none ∧ Settled cancelled counts := by
  cases h with
  | skip =>
    obtain rfl : counts = [] := shows
    exact ⟨rfl, .skipped, rfl, nofun⟩
  | release => exact ⟨rfl, shows⟩
  | unbooked hsame => cases hsame

/-- What the token interrupts is left if it was claimed, and has ended before otherwise. -/
theorem Turns.unbooked_shows (h : Turns (some (id, page)) deed hand') (hsame : deed.isUnbooked = true)
    (fits : deed.Fits t cancelled q) (shows : page.Shows cancelled counts) :
    ∃ page', hand' = some (id, page') ∧ page'.Shows cancelled counts := by
  cases h with
  | leave =>
    obtain rfl : cancelled = true := fits
    exact ⟨full, rfl, .left, shows, fun _ => rfl⟩
  | unbooked => exact ⟨page, rfl, shows⟩
  | _ => cases hsame

end Page

namespace Hand

open Receipt

variable {cancelled : Bool} {hand hand' : Option (Int × Page)} {deed : Deed} {t t' : Ticket} {q : Queue}
  {rs : List Receipt} {f : Receipt → Receipt}

theorem of_cancel (h : Hand t false rs hand) : Hand t true rs hand := by
  cases hand with
  | none => exact h
  | some page =>
    obtain ⟨r, hsole, hid, hshows⟩ := h
    exact ⟨r, hsole, hid, hshows.of_cancel⟩

/-- What others write on their receipts leaves what is in hand. -/
theorem amend_of_ne (h : Hand t cancelled rs hand) (hne : t ≠ t') (hf : ∀ r, (f r).holder = r.holder) :
    Hand t cancelled (amend t' f rs) hand := by
  cases hand with
  | none =>
    intro r hr
    obtain ⟨r₀, hr₀, rfl⟩ := List.mem_map.1 hr
    split
    · rename_i hheld
      exact isHeldBy_of_holder_ne (by rw [hf, holder_of_isHeldBy hheld]; exact hne.symm)
    · exact h r₀ hr₀
  | some page =>
    obtain ⟨r, hsole, hid, hshows⟩ := h
    exact ⟨r, hsole.amend_of_ne hne hf, hid, hshows⟩

/-- What others do leaves what is in hand. -/
theorem of_other (h : Hand t cancelled rs hand) (hne : t ≠ t') : Hand t cancelled (deed.onReceipts t' rs) hand := by
  cases deed with
  | take task =>
    have hnew : isHeldBy t ⟨t', task, [], .held⟩ = false := isHeldBy_of_holder_ne hne.symm
    cases hand with
    | none =>
      intro r hr
      rcases List.mem_append.1 hr with hold | hlast
      · exact h r hold
      · rw [List.mem_singleton.1 hlast]
        exact hnew
    | some page =>
      obtain ⟨r, hsole, hid, hshows⟩ := h
      exact ⟨r, hsole.append _ hnew, hid, hshows⟩
  | record count => exact h.amend_of_ne hne fun r => rfl
  | untrack id tracked => exact h.amend_of_ne hne fun r => rfl
  | _ => exact h

/-- Whoever puts the task out of its hands has nothing in hand. -/
theorem amend_fate {page : Int × Page} (h : Hand t cancelled rs (some page)) {fate : Fate} (gone : fate ≠ .held) :
    Hand t cancelled (amend t (fun r => { r with fate := fate }) rs) none := by
  obtain ⟨r, hsole, -⟩ := h
  obtain ⟨before, after, -, hamend, hothers⟩ := hsole.exists_amend
  intro r' hr'
  rw [hamend] at hr'
  rcases List.mem_append.1 hr' with hb | ha
  · exact hothers r' (List.mem_append_left _ hb)
  · rcases List.mem_cons.1 ha with rfl | ha
    · simp [isHeldBy, gone]
    · exact hothers r' (List.mem_append_right _ ha)

/-- Whoever does something has in hand what its deed makes of it. -/
theorem of_turns (h : Hand t cancelled rs hand) (turns : Page.Turns hand deed hand') (fits : deed.Fits t cancelled q) :
    Hand t cancelled (deed.onReceipts t rs) hand' := by
  cases hand with
  | none =>
    cases turns with
    | take task =>
      refine ⟨⟨t, task, [], .held⟩, ⟨by simp [isHeldBy], rs, [], rfl, ?_⟩, rfl, rfl⟩
      rw [List.append_nil]
      exact h
    | unbooked hsame =>
      rw [Deed.onReceipts_of_isUnbooked hsame]
      exact h
  | some page =>
    obtain ⟨id, page⟩ := page
    obtain ⟨r, hsole, hid, hshows⟩ := h
    by_cases hsame : deed.isUnbooked = true
    · obtain ⟨page', rfl, hshows'⟩ := turns.unbooked_shows hsame fits hshows
      rw [Deed.onReceipts_of_isUnbooked hsame]
      exact ⟨r, hsole, hid, hshows'⟩
    · cases deed with
      | record count =>
        obtain ⟨-, page', rfl, hshows'⟩ := turns.record hshows
        obtain ⟨before, after, -, hamend, hothers⟩ := hsole.exists_amend
        exact ⟨{ r with counts := r.counts ++ [count] }, ⟨hsole.1, before, after, hamend _, hothers⟩, hid, hshows'⟩
      | untrack id' tracked =>
        obtain ⟨rfl, -⟩ := turns.untrack hshows
        have hhand : Hand t cancelled rs (some (id, page)) := ⟨r, hsole, hid, hshows⟩
        exact hhand.amend_fate (by decide)
      | send task =>
        cases turns
        contradiction
      | take task =>
        cases turns
        contradiction
      | _ => exact absurd rfl hsame

end Hand

/-! ### Receipts and counters -/

/-- Every task that a worker has received and has not in hand any more has ended in one of the ways; it was left and
struck off only if the token has fired. -/
def AllEnded (cancelled : Bool) (rs : List Receipt) : Prop :=
  ∀ r ∈ rs, r.fate ≠ .held → ∃ e : Exit, r.counts = e.counts ∧ (r.fate = .struckOff → e = .left → cancelled = true)

section

open Receipt

variable {s : Settings} {cancelled : Bool} {hand hand' : Option (Int × Page)} {deed : Deed} {t : Ticket} {q : Queue}
  {rs : List Receipt} {tally : Tally}

private theorem AllEnded.of_amend {f : Receipt → Receipt} (h : AllEnded cancelled rs)
    (ends : ∀ r ∈ rs, r.isHeldBy t = true → (f r).fate ≠ .held →
      ∃ e : Exit, (f r).counts = e.counts ∧ ((f r).fate = .struckOff → e = .left → cancelled = true)) :
    AllEnded cancelled (amend t f rs) := by
  intro r hr hfate
  obtain ⟨r₀, hr₀, rfl⟩ := List.mem_map.1 hr
  by_cases hheld : r₀.isHeldBy t = true
  · rw [if_pos hheld] at hfate ⊢
    exact ends r₀ hr₀ hheld hfate
  · rw [if_neg hheld] at hfate ⊢
    exact h r₀ hr₀ hfate

theorem AllEnded.of_turns (h : AllEnded cancelled rs) (hands : Hand t cancelled rs hand)
    (turns : Page.Turns hand deed hand') : AllEnded cancelled (deed.onReceipts t rs) := by
  cases deed with
  | take task =>
    intro r hr hfate
    rcases List.mem_append.1 hr with hold | hnew
    · exact h r hold hfate
    · rw [List.mem_singleton.1 hnew] at hfate
      exact absurd rfl hfate
  | record count =>
    refine h.of_amend fun r _ hheld hfate => ?_
    simp only [isHeldBy, decide_eq_true_eq] at hheld
    exact absurd hheld.1 hfate
  | untrack id tracked =>
    cases hand with
    | none =>
      cases turns with
      | unbooked hsame => cases hsame
    | some page =>
      obtain ⟨id', page⟩ := page
      obtain ⟨r, hsole, -, hshows⟩ := hands
      obtain ⟨-, e, hcounts, hleft⟩ := turns.untrack hshows
      refine h.of_amend fun r' hr' hheld _ => ?_
      obtain rfl := hsole.eq_of_mem hr' hheld
      exact ⟨e, hcounts, fun _ => hleft⟩
  | _ => exact h

/-- A task that a worker loses where it waits has not come further than its claim, or is done with. -/
theorem AllEnded.of_loss (h : AllEnded cancelled rs) (hands : Hand t cancelled rs hand)
    (rests : hand.map Prod.snd ≠ some .worked) :
    AllEnded cancelled (amend t (fun r => { r with fate := .lost }) rs) := by
  refine h.of_amend fun r' hr' hheld _ => ?_
  suffices hexit : ∃ e : Exit, r'.counts = e.counts by
    obtain ⟨e, hcounts⟩ := hexit
    exact ⟨e, hcounts, nofun⟩
  cases hand with
  | none =>
    rw [hands r' hr'] at hheld
    cases hheld
  | some page =>
    obtain ⟨id, page⟩ := page
    obtain ⟨r, hsole, -, hshows⟩ := hands
    obtain rfl := hsole.eq_of_mem hr' hheld
    cases page with
    | blank => exact ⟨.skipped, hshows⟩
    | claimed => exact ⟨.left, hshows⟩
    | worked => exact absurd rfl rests
    | full =>
      obtain ⟨e, hcounts, -⟩ := hshows
      exact ⟨e, hcounts⟩

/-- What stands on the receipts changes by what is counted. -/
theorem countP_onReceipts (hands : Hand t cancelled rs hand) (turns : Page.Turns hand deed hand') {mark : Count}
    (h : mark.isMark = true) (even : tally.number mark = rs.countP (hasCounted mark)) :
    (deed.onTally tally).number mark = (deed.onReceipts t rs).countP (hasCounted mark) := by
  cases deed with
  | take task =>
    show tally.number mark = (rs ++ [_]).countP (hasCounted mark)
    rw [List.countP_append, ← even]
    simp [hasCounted]
  | record count =>
    cases hand with
    | none =>
      cases turns with
      | unbooked hsame => cases hsame
    | some page =>
      obtain ⟨id, page⟩ := page
      obtain ⟨r, hsole, -, hshows⟩ := hands
      obtain ⟨hnew, -⟩ := turns.record hshows
      obtain ⟨before, after, hrs, hamend, -⟩ := hsole.exists_amend
      show (tally.record count).number mark = (amend t _ rs).countP (hasCounted mark)
      rw [hamend, tally.number_record count h, even, hrs]
      simp only [List.countP_append, List.countP_cons]
      -- the mark stands on the receipt now if it stood there before, or if it is the one that is counted
      have hr : (if hasCounted mark { r with counts := r.counts ++ [count] } = true then 1 else 0)
          = (if hasCounted mark r = true then 1 else 0) + if mark = count then 1 else 0 := by
        by_cases hsame : mark = count
        · subst hsame
          simp [hasCounted, hnew]
        · simp [hasCounted, hsame]
      omega
  | untrack id tracked =>
    show tally.number mark = (rs.map _).countP (hasCounted mark)
    rw [List.countP_map, even]
    refine List.countP_congr fun r _ => ?_
    simp only [Function.comp_apply]
    split <;> rfl
  | _ => exact even

/-- What a worker receives goes from the channel to the receipts. -/
theorem length_onReceipts (turns : Page.Turns hand deed hand') (fits : deed.Fits t cancelled q) (rs : List Receipt) :
    (deed.onReceipts t rs).length + (deed.onQueue t q).channel.items.length = rs.length + q.channel.items.length := by
  cases turns with
  | take task =>
    obtain ⟨c, hc, hafter⟩ := fits.exists_takeFor
    rw [hafter, (Channel.takeFor_spec hc).1]
    simp only [Deed.onReceipts, List.length_append, List.length_cons, List.length_nil]
    omega
  | unbooked hsame => rw [Deed.onReceipts_of_isUnbooked hsame, Deed.items_of_isUnbooked hsame]
  | leave => rfl
  | _ => exact congrArg (· + _) (List.length_map _)

/-- A worker counts neither polls nor what is handed over. -/
theorem Page.Turns.numbers (turns : Page.Turns hand deed hand') (tally : Tally) :
    (deed.onTally tally).enqueued = tally.enqueued ∧ (deed.onTally tally).polls = tally.polls ∧
      (deed.onTally tally).pollErrors = tally.pollErrors := by
  cases turns with
  | unbooked hsame =>
    rw [Deed.onTally_of_isUnbooked hsame]
    exact ⟨rfl, rfl, rfl⟩
  | _ => exact ⟨rfl, rfl, rfl⟩

/-- Whoever has done the work counts it as completed next. -/
theorem Page.Turns.workCount (turns : Page.Turns hand deed hand') (tally : Tally) :
    (deed.onTally tally).workCount + tally.completed + (if hand.map Prod.snd = some .worked then 1 else 0)
      = tally.workCount + (deed.onTally tally).completed + if hand'.map Prod.snd = some .worked then 1 else 0 := by
  cases turns with
  | unbooked hsame =>
    rw [Deed.onTally_of_isUnbooked hsame]
  | work id elapsed =>
    show tally.workCount + 1 + tally.completed + 0 = tally.workCount + tally.completed + 1
    omega
  | _ => rfl

end

end Backlog.Dispatch

import Backlog.Task

/-!
# The channel

The tasks on their way from the dispatcher to the workers, first in, first out, and at most so many at a time.  Whoever
finds no room, or no task, waits in line under a ticket of its own.  Room that becomes free is reserved for the first
in the line of senders at once, and a task belongs to the first in the line of receivers.

Key facts: tasks and reserved places together never exceed the capacity (`Channel.Fits`, kept by every operation), and
as long as a sender waits there is no room.
-/

namespace Backlog

/-- The name under which somebody waits at a channel. -/
abbrev Ticket := Nat

/-- A channel with room for a number of tasks. -/
structure Channel where
  capacity : Nat
  /-- The tasks in the channel, the oldest first. -/
  items : List Task
  /-- The senders for whom a place is reserved. -/
  granted : List Ticket
  /-- The senders that wait for a place, in line. -/
  senders : List Ticket
  /-- The receivers that wait for a task, in line. -/
  receivers : List Ticket
deriving DecidableEq, Repr

namespace Channel

/-- The empty channel with room for so many tasks, but for one at least. -/
def empty (capacity : Nat) : Channel := ⟨max capacity 1, [], [], [], []⟩

/-- The places that are taken: those of tasks and those reserved for senders. -/
def buffered (c : Channel) : Nat := c.items.length + c.granted.length

/-- Whether a channel is in order: no more places are taken than there are, and nobody waits for a place that is
free. -/
structure Fits (c : Channel) : Prop where
  buffered_le : c.buffered ≤ c.capacity
  full : c.senders ≠ [] → c.buffered = c.capacity

/-- A place that has become free goes to the first sender in line. -/
def passOn (c : Channel) : Channel :=
  match c.senders with
  | [] => c
  | t :: rest => { c with granted := c.granted ++ [t], senders := rest }

/-- A sender comes to the channel: a place is reserved for it, or it joins the line. -/
def join (c : Channel) (t : Ticket) : Channel :=
  if c.buffered < c.capacity then { c with granted := c.granted ++ [t] } else { c with senders := c.senders ++ [t] }

/-- Whether a place is reserved for a sender. -/
def maySend (c : Channel) (t : Ticket) : Bool := c.granted.contains t

/-- A sender puts its task into the place that is reserved for it. -/
def send (c : Channel) (t : Ticket) (task : Task) : Channel :=
  { c with granted := c.granted.erase t, items := c.items ++ [task] }

/-- A sender gives up; a place that was reserved for it is passed on. -/
def leave (c : Channel) (t : Ticket) : Channel :=
  if c.granted.contains t then passOn { c with granted := c.granted.erase t }
  else { c with senders := c.senders.erase t }

/-- The oldest task is taken out, and its place is passed on. -/
def take (c : Channel) : Option (Task × Channel) :=
  match c.items with
  | [] => none
  | task :: rest => some (task, passOn { c with items := rest })

/-- A receiver comes to the channel and joins the line. -/
def queueUp (c : Channel) (t : Ticket) : Channel := { c with receivers := c.receivers ++ [t] }

/-- A receiver leaves the line. -/
def turnAway (c : Channel) (t : Ticket) : Channel := { c with receivers := c.receivers.erase t }

/-- A receiver takes a task if it is the first in line. -/
def takeFor (c : Channel) (t : Ticket) : Option (Task × Channel) :=
  if c.receivers.head? = some t then ({ c with receivers := c.receivers.tail }).take else none

/-- Somebody who does not wait takes a task unless somebody waits for one. -/
def tryTake (c : Channel) : Option (Task × Channel) := if c.receivers.isEmpty then c.take else none

/-! ### The capacity -/

theorem fits_empty (n : Nat) : (empty n).Fits := ⟨by simp [empty, buffered], by simp [empty]⟩

theorem fits_join {c : Channel} (h : c.Fits) (t : Ticket) : (c.join t).Fits := by
  unfold join
  split
  · rename_i hlt
    refine ⟨by simp only [buffered, List.length_append, List.length_singleton] at hlt ⊢; omega, fun hs => ?_⟩
    have := h.full hs
    omega
  · rename_i hge
    have := h.buffered_le
    exact ⟨this, fun _ => by simp only [buffered] at *; omega⟩

theorem fits_send {c : Channel} (h : c.Fits) {t : Ticket} (ht : t ∈ c.granted) (task : Task) :
    (c.send t task).Fits := by
  have hl : (c.granted.erase t).length = c.granted.length - 1 := List.length_erase_of_mem ht
  have hp : 0 < c.granted.length := List.length_pos_of_mem ht
  have hb : (c.send t task).buffered = c.buffered := by
    simp only [send, buffered, List.length_append, List.length_singleton, hl]; omega
  exact ⟨hb ▸ h.buffered_le, fun hs => hb ▸ h.full hs⟩

/-- Passing a place on restores order after a place was freed. -/
private theorem fits_passOn {c : Channel} (hle : c.buffered < c.capacity)
    (hfull : c.senders ≠ [] → c.buffered + 1 = c.capacity) : c.passOn.Fits := by
  unfold passOn
  split
  · rename_i hs
    exact ⟨by omega, fun h => absurd hs h⟩
  · rename_i t rest hs
    have := hfull (by simp [hs])
    constructor
    · simp only [buffered, List.length_append, List.length_singleton] at *; omega
    · intro _
      simp only [buffered, List.length_append, List.length_singleton] at *; omega

theorem fits_leave {c : Channel} (h : c.Fits) (t : Ticket) : (c.leave t).Fits := by
  unfold leave
  have := h.buffered_le
  split
  · rename_i ht
    have ht : t ∈ c.granted := by simpa using ht
    have hl : (c.granted.erase t).length = c.granted.length - 1 := List.length_erase_of_mem ht
    have hp : 0 < c.granted.length := List.length_pos_of_mem ht
    refine fits_passOn ?_ fun hs => ?_
    · simp only [buffered, hl] at *; omega
    · have := h.full hs
      simp only [buffered, hl] at *; omega
  · refine ⟨this, fun hs => h.full fun e => hs ?_⟩
    simp [e]

theorem fits_take {c c' : Channel} {task : Task} (h : c.Fits) (ht : c.take = some (task, c')) : c'.Fits := by
  unfold take at ht
  split at ht
  · cases ht
  · rename_i t rest hi
    cases ht
    have := h.buffered_le
    refine fits_passOn ?_ fun hs => ?_
    · simp only [buffered, hi, List.length_cons] at *; omega
    · have := h.full hs
      simp only [buffered, hi, List.length_cons] at *; omega

end Channel

end Backlog

import Backlog.Dispatch.Tally
import Mathlib.Algebra.Order.BigOperators.Group.List
import Mathlib.Algebra.Order.Ring.Nat

/-!
# Sums and means of working times

The counters keep the number of the working times and the sum of their whole microseconds, whatever else is counted in
between.  The sum is taken modulo the number of values that 64 bits have; the number counts single events, of which no
run has so many.  The mean is rounded down to a unit that depends on the number: a nanosecond while it fits 32 bits, a
microsecond above.

Key facts: one event adds what it records to the sums (`Sums.record`), and so does a run of events (`Sums.foldl`); the
mean is worked out without a division by zero and without a number that does not fit its word (`mean?_eq`), it is exact
up to one unit (`mean_bounds`), and it lies between the least and the greatest of the working times as long as their sum
does not wrap around (`Sums.average_between`).
-/

namespace Backlog.Dispatch

/-- The working time that an event records. -/
def Count.elapsed? : Count → Option Duration
  | worked elapsed => some elapsed
  | _ => none

namespace Tally

/-- The counters after some events. -/
def after (events : List Count) : Tally := events.foldl record empty

/-- The working times that some events record. -/
def spans (events : List Count) : List Duration := events.filterMap Count.elapsed?

/-- The working times that some events record, in microseconds as they are summed. -/
def recorded (events : List Count) : List Nat := (spans events).map cappedMicros

/-! ### Sums -/

/-- The counters hold the number and the sum of some working times. -/
structure Sums (t : Tally) (micros : List Nat) : Prop where
  count : t.workCount = micros.length
  sum : t.workMicros = micros.sum % 2 ^ 64

theorem sums_empty : Sums empty [] := ⟨rfl, rfl⟩

variable {t : Tally} {micros : List Nat} {count : Nat} {total : Duration}

/-- An event adds what it records. -/
theorem Sums.record (h : Sums t micros) (event : Count) : Sums (t.record event) (micros ++ recorded [event]) := by
  obtain ⟨hcount, hsum⟩ := h
  cases event with
  | worked elapsed =>
    have hrecorded : recorded [.worked elapsed] = [cappedMicros elapsed] := rfl
    constructor
    · show t.workCount + 1 = _
      rw [hrecorded, hcount, List.length_append]
      rfl
    · show (t.workMicros + cappedMicros elapsed) % 2 ^ 64 = _
      rw [hrecorded, hsum, List.sum_append, List.sum_singleton, Nat.mod_add_mod]
  | _ =>
    rw [show recorded [_] = [] from rfl, List.append_nil]
    exact ⟨hcount, hsum⟩

/-- A run of events adds what its events record. -/
theorem Sums.foldl (h : Sums t micros) (events : List Count) :
    Sums (events.foldl Tally.record t) (micros ++ recorded events) := by
  induction events generalizing t micros with
  | nil =>
    rw [show recorded [] = [] from rfl, List.append_nil]
    exact h
  | cons event events ih =>
    have hrecorded : recorded (event :: events) = recorded [event] ++ recorded events := by
      unfold recorded spans
      rw [← List.map_append, ← List.filterMap_append, List.singleton_append]
    rw [List.foldl_cons, hrecorded, ← List.append_assoc]
    exact ih (h.record event)

theorem sums_after (events : List Count) : Sums (after events) (recorded events) :=
  sums_empty.foldl events

/-! ### Means -/

/-- The unit to which a mean of so many spans is exact. -/
def unit (count : Nat) : Duration := if count < 2 ^ 32 then ⟨1⟩ else .ofMicros 1

/-- A number as a word of so many bits, if it fits. -/
def word? (bits n : Nat) : Option Nat := if n < 2 ^ bits then some n else none

/-- A quotient, unless there is nothing to divide by. -/
def quotient? (a b : Nat) : Option Nat := if b = 0 then none else some (a / b)

/-- A span of so many nanoseconds, unless it is longer than the longest one. -/
def span? (nanos : Nat) : Option Duration := if nanos ≤ Duration.longest.nanos then some ⟨nanos⟩ else none

/-- The mean as it is worked out in words, if every division has a divisor and every number fits its word.  A count of at
most 32 bits divides the span itself; a larger one divides its microseconds, which take up to 128 bits, and the quotient
is stored in 64. -/
def mean? (count : Nat) (total : Duration) : Option Duration :=
  match word? 32 count with
  | some 0 => some .zero
  | some divisor => (quotient? total.nanos divisor).bind span?
  | none => do
    let micros ← word? 128 total.micros
    let quotient ← quotient? micros count
    let word ← word? 64 quotient
    span? (word * 1000)

theorem mean_zero (total : Duration) : mean 0 total = .zero := rfl

theorem mean_of_lt (hpos : 0 < count) (hlt : count < 2 ^ 32) : mean count total = ⟨total.nanos / count⟩ := by
  have hlt' : count < 4294967296 := hlt
  unfold mean
  rw [if_neg (by omega), if_pos hlt']

theorem mean_of_le (hle : 2 ^ 32 ≤ count) : mean count total = .ofMicros (total.micros / count) := by
  unfold mean
  rw [if_neg (by omega), if_neg (by omega)]

/-- The mean is worked out: nothing is divided by zero, and every number fits its word. -/
theorem mean?_eq (h : total ≤ .longest) : mean? count total = some (mean count total) := by
  have hlongest : Duration.longest.nanos = 18446744073709551615 * 1000000000 + 999999999 := rfl
  have hnanos : total.nanos ≤ Duration.longest.nanos := h
  unfold mean?
  by_cases hlt : count < 2 ^ 32
  · have hfits : word? 32 count = some count := if_pos hlt
    rw [hfits]
    cases count with
    | zero => rfl
    | succ count =>
      have hquotient : quotient? total.nanos (count + 1) = some (total.nanos / (count + 1)) := if_neg (by omega)
      have hspan : total.nanos / (count + 1) ≤ Duration.longest.nanos := (Nat.div_le_self ..).trans hnanos
      rw [mean_of_lt (Nat.succ_pos _) hlt]
      show (quotient? total.nanos (count + 1)).bind span? = _
      rw [hquotient]
      exact if_pos hspan
  · have hle : 2 ^ 32 ≤ count := Nat.le_of_not_lt hlt
    -- the microseconds of the longest span take 84 bits, and a division by such a count leaves fewer than 64 of them
    have hmicros : total.micros < 2 ^ 84 := by
      unfold Duration.micros
      omega
    have hquotient : total.micros / count < 2 ^ 64 := by
      apply Nat.div_lt_of_lt_mul
      omega
    have hspan : total.micros / count * 1000 ≤ Duration.longest.nanos := by omega
    have hwide : word? 128 total.micros = some total.micros := if_pos (by omega)
    have hdivided : quotient? total.micros count = some (total.micros / count) := if_neg (by omega)
    have hword : word? 64 (total.micros / count) = some (total.micros / count) := if_pos hquotient
    rw [show word? 32 count = none from if_neg hlt, mean_of_le hle]
    simp only [hwide, hdivided, hword, Option.bind_eq_bind, Option.bind_some]
    exact if_pos hspan

/-- A mean is exact up to one unit. -/
theorem mean_bounds (hpos : 0 < count) (total : Duration) :
    count * (mean count total).nanos ≤ total.nanos ∧ total.nanos < count * (mean count total + unit count).nanos := by
  by_cases hlt : count < 2 ^ 32
  · have hunit : unit count = ⟨1⟩ := if_pos hlt
    rw [mean_of_lt hpos hlt, hunit]
    exact ⟨Nat.mul_div_le .., Nat.lt_mul_div_succ _ hpos⟩
  · have hunit : unit count = .ofMicros 1 := if_neg hlt
    rw [mean_of_le (Nat.le_of_not_lt hlt), hunit]
    have hlow : count * (total.micros / count) ≤ total.micros := Nat.mul_div_le ..
    have hhigh : total.micros < count * (total.micros / count + 1) := Nat.lt_mul_div_succ _ hpos
    have hmicros : total.micros * 1000 ≤ total.nanos ∧ total.nanos < (total.micros + 1) * 1000 := by
      unfold Duration.micros
      omega
    constructor
    · show count * (total.micros / count * 1000) ≤ total.nanos
      rw [← Nat.mul_assoc]
      omega
    · show total.nanos < count * (total.micros / count * 1000 + 1 * 1000)
      rw [← Nat.add_mul, ← Nat.mul_assoc]
      omega

/-- A mean is at least what every span of the sum is at least. -/
theorem ofMicros_le_mean (hpos : 0 < count) {least : Nat} (h : count * least ≤ total.micros) :
    .ofMicros least ≤ mean count total := by
  by_cases hlt : count < 2 ^ 32
  · rw [mean_of_lt hpos hlt, Duration.le_iff]
    apply (Nat.le_div_iff_mul_le hpos).2
    show least * 1000 * count ≤ total.nanos
    rw [Nat.mul_comm, ← Nat.mul_assoc]
    unfold Duration.micros at h
    omega
  · rw [mean_of_le (Nat.le_of_not_lt hlt), Duration.le_iff]
    apply Nat.mul_le_mul_right
    apply (Nat.le_div_iff_mul_le hpos).2
    rwa [Nat.mul_comm]

/-- A mean is at most what every span of the sum is at most. -/
theorem mean_le_ofMicros (hpos : 0 < count) {greatest : Nat} (h : total.nanos ≤ count * greatest * 1000) :
    mean count total ≤ .ofMicros greatest := by
  have hmean : count * (mean count total).nanos ≤ count * (greatest * 1000) := by
    rw [← Nat.mul_assoc]
    exact (mean_bounds hpos total).1.trans h
  exact Nat.le_of_mul_le_mul_left hmean hpos

/-! ### Working times -/

theorem length_recorded (events : List Count) : (recorded events).length = (spans events).length :=
  List.length_map ..

/-- As long as the sum of all whole microseconds fits 64 bits, none of the working times is capped. -/
theorem recorded_eq {events : List Count} (h : ((spans events).map Duration.micros).sum < 2 ^ 64) :
    recorded events = (spans events).map Duration.micros := by
  unfold recorded
  apply List.map_congr_left
  intro elapsed helapsed
  have hle : elapsed.micros ≤ ((spans events).map Duration.micros).sum :=
    List.le_sum_of_mem (List.mem_map_of_mem helapsed)
  unfold cappedMicros
  omega

/-- Numbers have a least and a greatest one, and their sum lies between as many of the one and of the other. -/
theorem exists_least_greatest (hne : micros ≠ []) : ∃ least greatest, micros.min? = some least ∧
    micros.max? = some greatest ∧ micros.length * least ≤ micros.sum ∧ micros.sum ≤ micros.length * greatest := by
  obtain ⟨least, hleast⟩ := Option.isSome_iff_exists.1 (List.isSome_min?_of_ne_nil hne)
  obtain ⟨greatest, hgreatest⟩ := Option.isSome_iff_exists.1 (List.isSome_max?_of_ne_nil hne)
  refine ⟨least, greatest, hleast, hgreatest, ?_, ?_⟩
  · exact List.card_nsmul_le_sum _ _ (List.min?_eq_some_iff.1 hleast).2
  · exact List.sum_le_card_nsmul _ _ (List.max?_eq_some_iff.1 hgreatest).2

/-- The mean of what does not wrap around lies between the least and the greatest. -/
theorem Sums.average_between (h : Sums t micros) (hne : micros ≠ []) (hsum : micros.sum < 2 ^ 64) :
    ∃ least greatest, micros.min? = some least ∧ micros.max? = some greatest ∧
      .ofMicros least ≤ t.average ∧ t.average ≤ .ofMicros greatest := by
  obtain ⟨least, greatest, hleast, hgreatest, hlow, hhigh⟩ := exists_least_greatest hne
  have hpos : 0 < t.workCount := h.count ▸ List.length_pos_iff.2 hne
  have hmicros : t.workMicros = micros.sum := h.sum.trans (Nat.mod_eq_of_lt hsum)
  rw [← h.count, ← hmicros] at hlow hhigh
  refine ⟨least, greatest, hleast, hgreatest, ofMicros_le_mean hpos ?_, mean_le_ofMicros hpos ?_⟩
  · have hwhole : t.workTotal.micros = t.workMicros := Nat.mul_div_cancel _ (by decide)
    rwa [hwhole]
  · exact Nat.mul_le_mul_right 1000 hhigh

theorem Sums.workTotal_le (h : Sums t micros) : t.workTotal ≤ .longest := by
  have hlt : t.workMicros < 2 ^ 64 := by
    rw [h.sum]
    exact Nat.mod_lt _ (by decide)
  show t.workMicros * 1000 ≤ 18446744073709551615 * 1000000000 + 999999999
  omega

/-- **Main theorem.**  After any events, in any order, as many working times are counted as were recorded, and their
total is the sum of their whole microseconds, each capped at the largest number of 64 bits, modulo the number of values
that 64 bits have.  The mean is worked out without a division by zero and without a number that does not fit its word.  It
is zero of none, and otherwise it is exact up to one unit, which is a nanosecond while the number fits 32 bits and a
microsecond above; and as long as the sum does not wrap around, the mean lies between the least and the greatest that was
recorded. -/
theorem workingTimes_of_events (events : List Count) :
    let t := after events
    let n := (spans events).length
    t.workCount = n ∧
    t.workTotal = .ofMicros ((recorded events).sum % 2 ^ 64) ∧
    mean? t.workCount t.workTotal = some t.average ∧
    (n = 0 → t.average = .zero) ∧
    (1 ≤ n → n * t.average.nanos ≤ t.workTotal.nanos ∧ t.workTotal.nanos < n * (t.average + unit n).nanos) ∧
    (1 ≤ n → (recorded events).sum < 2 ^ 64 →
      ∃ least greatest, (recorded events).min? = some least ∧ (recorded events).max? = some greatest ∧
        .ofMicros least ≤ t.average ∧ t.average ≤ .ofMicros greatest) ∧
    (((spans events).map Duration.micros).sum < 2 ^ 64 → recorded events = (spans events).map Duration.micros) := by
  intro t n
  have hsums : Sums t (recorded events) := sums_after events
  have hcount : t.workCount = n := hsums.count.trans (length_recorded events)
  refine ⟨hcount, ?_, mean?_eq hsums.workTotal_le, ?_, ?_, ?_, recorded_eq⟩
  · unfold workTotal
    rw [hsums.sum]
  · intro hnone
    unfold average
    rw [hcount, hnone]
    exact mean_zero _
  · intro hpos
    rw [← hcount] at hpos ⊢
    exact mean_bounds hpos _
  · intro hpos hsum
    refine hsums.average_between ?_ hsum
    rwa [← List.length_pos_iff, length_recorded]

/-- Two working times that are no whole microseconds, and other events around them. -/
theorem workingTimes_of_events_twoTimes : ∃ events : List Count,
    1 ≤ (spans events).length ∧ (recorded events).sum < 2 ^ 64 ∧ recorded events = [10000, 30001] ∧
    (after events).workCount = 2 ∧ (after events).average = ⟨20000500⟩ ∧
    2 * (after events).average.nanos ≤ (after events).workTotal.nanos ∧
    ∃ least greatest, (recorded events).min? = some least ∧ (recorded events).max? = some greatest ∧
      .ofMicros least ≤ (after events).average ∧ (after events).average ≤ .ofMicros greatest := by
  have hpos : 1 ≤ (spans [.poll, .worked ⟨10000999⟩, .completed, .worked ⟨30001000⟩]).length := by decide
  have hsum : (recorded [.poll, .worked ⟨10000999⟩, .completed, .worked ⟨30001000⟩]).sum < 2 ^ 64 := by decide
  obtain ⟨hcount, -, -, -, hbounds, hbetween, -⟩ :=
    workingTimes_of_events [.poll, .worked ⟨10000999⟩, .completed, .worked ⟨30001000⟩]
  exact ⟨_, hpos, hsum, rfl, hcount, by decide, (hbounds hpos).1, hbetween hpos hsum⟩

end Tally

end Backlog.Dispatch

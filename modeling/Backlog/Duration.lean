/-!
# Durations

Spans of time, counted in whole nanoseconds.  The settings, the timeouts and the simulated clock all use them.

Key facts:
* `Duration.double` never passes `Duration.longest`;
* `Duration.text` chooses the largest unit of `s`, `ms`, `µs`, `ns` that the span reaches, and writes the part below
  one unit as a decimal fraction without trailing zeros.
-/

namespace Backlog

/-- A span of time, counted in whole nanoseconds. -/
structure Duration where
  nanos : Nat
deriving DecidableEq, Repr, Inhabited

/-- A moment of the monotonic clock: the time that has passed since the clock was started. -/
abbrev Instant := Duration

namespace Duration

/-- The empty span. -/
def zero : Duration := ⟨0⟩

/-- The span of `n` microseconds. -/
def ofMicros (n : Nat) : Duration := ⟨n * 1000⟩

/-- The span of `n` milliseconds. -/
def ofMillis (n : Nat) : Duration := ⟨n * 1000000⟩

/-- The span of `n` seconds. -/
def ofSecs (n : Nat) : Duration := ⟨n * 1000000000⟩

/-- The whole seconds of a span. -/
def secs (d : Duration) : Nat := d.nanos / 1000000000

/-- The nanoseconds of a span beyond its whole seconds. -/
def subsecNanos (d : Duration) : Nat := d.nanos % 1000000000

/-- The whole milliseconds of a span. -/
def millis (d : Duration) : Nat := d.nanos / 1000000

/-- The whole microseconds of a span. -/
def micros (d : Duration) : Nat := d.nanos / 1000

/-- The longest span that a setting can hold: the largest 64-bit count of seconds and all but a nanosecond. -/
def longest : Duration := ⟨18446744073709551615 * 1000000000 + 999999999⟩

instance : Add Duration := ⟨fun a b => ⟨a.nanos + b.nanos⟩⟩

instance : LE Duration := ⟨fun a b => a.nanos ≤ b.nanos⟩

instance : LT Duration := ⟨fun a b => a.nanos < b.nanos⟩

instance (a b : Duration) : Decidable (a ≤ b) := inferInstanceAs (Decidable (a.nanos ≤ b.nanos))

instance (a b : Duration) : Decidable (a < b) := inferInstanceAs (Decidable (a.nanos < b.nanos))

@[simp] theorem nanos_add (a b : Duration) : (a + b).nanos = a.nanos + b.nanos := rfl

theorem le_iff {a b : Duration} : a ≤ b ↔ a.nanos ≤ b.nanos := Iff.rfl

theorem lt_iff {a b : Duration} : a < b ↔ a.nanos < b.nanos := Iff.rfl

@[ext] theorem ext {a b : Duration} (h : a.nanos = b.nanos) : a = b := by
  cases a; cases b; simp_all

/-- Whether a span is empty. -/
def isZero (d : Duration) : Bool := d.nanos == 0

/-- Twice a span, but never more than the longest one. -/
def double (d : Duration) : Duration := ⟨min (d.nanos * 2) longest.nanos⟩

/-! ### Text -/

/-- The digits of a fraction that counts units of `10 ^ -places`, without trailing zeros. -/
private def fractionDigits (count places : Nat) : List Char :=
  let digits := (toString count).toList
  let padded := List.replicate (places - digits.length) '0' ++ digits
  (padded.reverse.dropWhile (· == '0')).reverse

/-- A number of units with the fraction that is left below one unit. -/
private def decimal (whole count places : Nat) : String :=
  match fractionDigits count places with
  | [] => toString whole
  | digits => toString whole ++ "." ++ String.ofList digits

/-- A span as people read it: `1.5s`, `250ms`, `10.001µs`, `0ns`. -/
def text (d : Duration) : String :=
  if d.nanos ≥ 1000000000 then decimal (d.nanos / 1000000000) (d.nanos % 1000000000) 9 ++ "s"
  else if d.nanos ≥ 1000000 then decimal (d.nanos / 1000000) (d.nanos % 1000000) 6 ++ "ms"
  else if d.nanos ≥ 1000 then decimal (d.nanos / 1000) (d.nanos % 1000) 3 ++ "µs"
  else toString d.nanos ++ "ns"

end Duration

end Backlog

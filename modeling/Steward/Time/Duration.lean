/-
# Spans of time

A span is whole seconds and a rest in nanoseconds. The longest span has 2⁶⁴ − 1 seconds and
999 999 999 nanoseconds; a product that would pass it stops there.

Key definitions: `Duration`, `Duration.toNanos`, `Duration.times`, `Duration.longest`.
Key theorems: `Duration.toNanos_times`, `Duration.shorter_iff`.
-/
namespace Steward

/-- Nanoseconds in a second. -/
abbrev second : Nat := 1000000000

/-- A span of time of at most `longest`. -/
structure Duration where
  seconds : Nat
  nanos : Nat
  seconds_lt : seconds < UInt64.size := by decide
  nanos_lt : nanos < second := by decide
deriving DecidableEq

namespace Duration

/-- No time at all. -/
def zero : Duration := { seconds := 0, nanos := 0 }

instance : Inhabited Duration := ⟨zero⟩

/-- The longest span. -/
def longest : Duration := { seconds := UInt64.size - 1, nanos := 999999999 }

/-- The span in nanoseconds. -/
def toNanos (d : Duration) : Nat := d.seconds * second + d.nanos

/-- The span of that many seconds and nanoseconds, or the longest. -/
def ofParts (seconds nanos : Nat) : Duration :=
  if h : seconds + nanos / second < UInt64.size then
    ⟨seconds + nanos / second, nanos % second, h, Nat.mod_lt _ (by decide)⟩
  else longest

/-- The span of that many seconds, or the longest. -/
def ofSeconds (n : Nat) : Duration := ofParts n 0

/-- The span of that many nanoseconds, or the longest. -/
def ofNanos (n : Nat) : Duration := ofParts 0 n

/-- The span of that many milliseconds, or the longest. -/
def ofMillis (n : Nat) : Duration := ofParts (n / 1000) (n % 1000 * 1000000)

/-- The whole milliseconds in the span. -/
def toMillis (d : Duration) : Nat := d.seconds * 1000 + d.nanos / 1000000

/-- The span `k` times, or the longest span if that is too long. -/
def times (d : Duration) (k : Nat) : Duration :=
  let carry := d.nanos * k / second
  if h : d.seconds * k + carry < UInt64.size then
    ⟨d.seconds * k + carry, d.nanos * k % second, h, Nat.mod_lt _ (by decide)⟩
  else longest

/-- Whether a span is shorter than another. -/
def shorter (a b : Duration) : Bool :=
  a.seconds < b.seconds || (a.seconds == b.seconds && a.nanos < b.nanos)

theorem toNanos_longest : longest.toNanos = UInt64.size * second - 1 := by decide

theorem toNanos_times (d : Duration) (k : Nat) :
    (d.times k).toNanos = min (d.toNanos * k) longest.toNanos := by
  have carry := Nat.div_add_mod (d.nanos * k) 1000000000
  have rest := Nat.mod_lt (d.nanos * k) (show 1000000000 > 0 by decide)
  have split : d.toNanos * k = d.seconds * k * 1000000000 + d.nanos * k := by
    simp [toNanos, second, Nat.add_mul, Nat.mul_right_comm]
  rw [toNanos_longest, split]
  simp only [times]
  split
  · rename_i h
    have h : d.seconds * k + d.nanos * k / 1000000000 < UInt64.size := h
    simp only [toNanos, second, UInt64.size] at *
    omega
  · rename_i h
    have h : ¬ d.seconds * k + d.nanos * k / 1000000000 < UInt64.size := h
    rw [toNanos_longest]
    simp only [second, UInt64.size] at *
    omega

theorem shorter_iff (a b : Duration) : a.shorter b = true ↔ a.toNanos < b.toNanos := by
  have ha := a.nanos_lt
  have hb := b.nanos_lt
  simp only [shorter, toNanos, second, Bool.or_eq_true, Bool.and_eq_true, decide_eq_true_eq,
    beq_iff_eq] at *
  omega

end Duration
end Steward

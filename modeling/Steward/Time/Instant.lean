/-
# Points in time

An instant is a second counted from 1970-01-01T00:00:00 in universal time and the nanoseconds since
it began. A leap second has no number of its own: it is the stretch from 10⁹ nanoseconds on in the
second before it. A span between two instants counts a leap second that lies between their times of
day.

Key definitions: `Instant`, `Instant.minus`, `Instant.since`, `Instant.later`.
-/
import Steward.Time.Duration

namespace Steward

/-- A point in time, to the nanosecond. -/
structure Instant where
  seconds : Int
  nanos : Nat := 0
deriving DecidableEq

namespace Instant

/-- 1970-01-01T00:00:00Z. -/
def epoch : Instant := ⟨0, 0⟩

instance : Inhabited Instant := ⟨epoch⟩

/-- Whether the instant lies in a leap second. -/
def inLeap (t : Instant) : Bool := second ≤ t.nanos

/-- The seconds since midnight, a leap second apart. -/
def timeOfDay (t : Instant) : Int := t.seconds % 86400

/-- The seconds that leap seconds add to the span from `b` to `a`: that of the one with the earlier
time of day lies between the two. -/
def leapBetween (a b : Instant) : Int :=
  if b.timeOfDay < a.timeOfDay && b.inLeap then 1
  else if a.timeOfDay < b.timeOfDay && a.inLeap then -1
  else 0

/-- The nanoseconds from `b` to `a`, negative if `a` is the earlier. -/
def minus (a b : Instant) : Int :=
  (a.seconds - b.seconds + leapBetween a b) * second + ((a.nanos : Int) - b.nanos)

/-- The span from `b` to `a`, if `a` is not the earlier. -/
def since (a b : Instant) : Option Duration :=
  match a.minus b with
  | .ofNat n => some (.ofNanos n)
  | .negSucc _ => none

/-- The instant a span later. A leap second is left as soon as the span leads out of it. -/
def later (t : Instant) (d : Duration) : Instant :=
  if t.inLeap && t.nanos + d.toNanos < 2 * second then ⟨t.seconds, t.nanos + d.toNanos⟩
  else
    let n := (if t.inLeap then t.nanos - second else t.nanos) + d.toNanos
    ⟨t.seconds + (n / second : Nat), n % second⟩

end Instant
end Steward

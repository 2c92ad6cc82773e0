/-
# Growing delays

The delay before another attempt doubles with each attempt up to a cap: it is the unit times a power
of two, where a power that does not fit 32 bits counts as the largest number that does, and a
product beyond the longest span is that span.

Key definitions: `Backoff`, `Backoff.factor`, `Backoff.window`.
-/
import Steward.Time.Duration

namespace Steward

/-- The first delay, and the exponent after which delays grow no more. -/
structure Backoff where
  unit : Duration := .ofSeconds 10
  cap : UInt32 := 5
deriving DecidableEq

namespace Backoff

instance : Inhabited Backoff := ⟨{}⟩

/-- The number of units in the delay with exponent `e`. -/
def factor (b : Backoff) (e : UInt32) : Nat :=
  let n := min e.toNat b.cap.toNat
  if n < 32 then 1 <<< n else UInt32.size - 1

/-- The delay with exponent `e`. -/
def window (b : Backoff) (e : UInt32) : Duration := b.unit.times (b.factor e)

end Backoff
end Steward

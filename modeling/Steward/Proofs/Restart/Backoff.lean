/-
# The backoff window in closed form

The window is the unit as often as a power of two says. The exponent stops at the cap, the power at
the largest number of 32 bits, and the product at the longest span; each of the three stops is a
minimum, so the window is exact in nanoseconds as long as none of them is reached
(`Backoff.factor_eq`, `Backoff.toNanos_window`). The power stops where it does not fit 32 bits, so
neither it nor the product of it with the nanoseconds of the unit leaves its word
(`Backoff.factor_lt`, `Backoff.nanos_lt`).

A minimum respects the order in each of its parts, so the window shrinks neither as the exponent
grows nor as the cap does (`Backoff.window_mono`, `Backoff.window_le_of_cap_le`).

Key theorems: `Backoff.factor_eq`, `Backoff.toNanos_window`, `Backoff.window_mono`,
`Backoff.window_closed_form`.
-/
import Mathlib.Algebra.Group.Nat.Defs
import Steward.Restart.Backoff

namespace Steward
namespace Backoff

variable (b : Backoff) {e e' : UInt32}

/-! ### The power -/

/-- The power of two is exact unless it does not fit 32 bits. -/
theorem factor_eq (e : UInt32) :
    b.factor e = min (2 ^ min e.toNat b.cap.toNat) (UInt32.size - 1) := by
  simp only [factor]
  generalize min e.toNat b.cap.toNat = n
  split
  · rename_i fits
    have below : 2 ^ n ≤ 2 ^ 31 := Nat.pow_le_pow_right (by decide) (Nat.le_of_lt_succ fits)
    have room : 2 ^ 31 ≤ UInt32.size - 1 := by decide
    rw [Nat.one_shiftLeft, Nat.min_eq_left (Nat.le_trans below room)]
  · rename_i large
    have above : 2 ^ 32 ≤ 2 ^ n := Nat.pow_le_pow_right (by decide) (Nat.le_of_not_lt large)
    have past : UInt32.size - 1 ≤ 2 ^ 32 := by decide
    rw [Nat.min_eq_right (Nat.le_trans past above)]

theorem factor_pos (e : UInt32) : 0 < b.factor e := by
  rw [factor_eq]
  exact Nat.lt_min.2 ⟨Nat.two_pow_pos _, by decide⟩

/-- The power fits 32 bits. -/
theorem factor_lt (e : UInt32) : b.factor e < UInt32.size := by
  have stops : b.factor e ≤ UInt32.size - 1 := by
    rw [factor_eq]
    exact Nat.min_le_right _ _
  exact Nat.lt_of_le_of_lt stops (by decide)

/-- The nanoseconds of the unit, as often as the power says, fit 64 bits. -/
theorem nanos_lt (e : UInt32) : b.unit.nanos * b.factor e < UInt64.size := by
  have product : b.unit.nanos * b.factor e ≤ second * UInt32.size :=
    Nat.mul_le_mul (Nat.le_of_lt b.unit.nanos_lt) (Nat.le_of_lt (b.factor_lt e))
  exact Nat.lt_of_le_of_lt product (by decide)

/-- The power grows with the exponent that is left by the cap. -/
theorem factor_le {b b' : Backoff} (h : min e.toNat b.cap.toNat ≤ min e'.toNat b'.cap.toNat) :
    b.factor e ≤ b'.factor e' := by
  have powers := Nat.pow_le_pow_right (show 2 > 0 by decide) h
  rw [factor_eq, factor_eq]
  omega

/-! ### The window -/

/-- The window in nanoseconds. -/
theorem toNanos_window (e : UInt32) : (b.window e).toNanos =
    min (b.unit.toNanos * min (2 ^ min e.toNat b.cap.toNat) (UInt32.size - 1))
      Duration.longest.toNanos := by
  rw [window, Duration.toNanos_times, factor_eq]

/-- With one unit, the window is no shorter for a larger power. -/
theorem window_le {b b' : Backoff} (unit : b.unit = b'.unit) (h : b.factor e ≤ b'.factor e') :
    (b.window e).toNanos ≤ (b'.window e').toNanos := by
  have product := Nat.mul_le_mul_left b'.unit.toNanos h
  rw [window, window, Duration.toNanos_times, Duration.toNanos_times, unit]
  omega

/-- The window does not shrink as the exponent grows. -/
theorem window_mono (h : e ≤ e') : (b.window e).toNanos ≤ (b.window e').toNanos := by
  have larger := UInt32.le_iff_toNat_le.1 h
  exact window_le rfl (factor_le (by omega))

/-- The window does not shrink as the cap grows. -/
theorem window_le_of_cap_le {cap : UInt32} (h : b.cap ≤ cap) :
    (b.window e).toNanos ≤ (window { b with cap } e).toNanos := by
  have larger := UInt32.le_iff_toNat_le.1 h
  refine window_le rfl (factor_le ?_)
  show min e.toNat b.cap.toNat ≤ min e.toNat cap.toNat
  omega

/-- From the cap on, the window stays the same. -/
theorem window_of_cap_le (h : b.cap ≤ e) : b.window e = b.window b.cap := by
  have capped : min e.toNat b.cap.toNat = min b.cap.toNat b.cap.toNat := by
    have larger := UInt32.le_iff_toNat_le.1 h
    omega
  rw [window, window, factor_eq, factor_eq, capped]

/-- There is a window exactly if there is a unit. -/
theorem window_pos_iff (e : UInt32) : 0 < (b.window e).toNanos ↔ 0 < b.unit.toNanos := by
  have longest : 0 < Duration.longest.toNanos := by decide
  rw [window, Duration.toNanos_times, Nat.lt_min, Nat.mul_pos_iff_of_pos_right (b.factor_pos e)]
  exact and_iff_left longest

/-- **The window in closed form.** In exact nanoseconds it is the unit times the power of two with
the smaller one of the exponent and the cap, where the power stops at the largest number of 32 bits
and the product at the longest span; the power and its product with the nanoseconds of the unit fit
their words. So it shrinks neither as the exponent grows nor as the cap does, stays the same from
the cap on, and is something exactly if the unit is. -/
theorem window_closed_form (b : Backoff) (e : UInt32) :
    (b.window e).toNanos =
        min (b.unit.toNanos * min (2 ^ min e.toNat b.cap.toNat) (UInt32.size - 1))
          Duration.longest.toNanos ∧
      b.factor e < UInt32.size ∧ b.unit.nanos * b.factor e < UInt64.size ∧
      (∀ e', e ≤ e' → (b.window e).toNanos ≤ (b.window e').toNanos) ∧
      (∀ cap, b.cap ≤ cap → (b.window e).toNanos ≤ (window { b with cap } e).toNanos) ∧
      (b.cap ≤ e → b.window e = b.window b.cap) ∧
      (0 < (b.window e).toNanos ↔ 0 < b.unit.toNanos) :=
  ⟨b.toNanos_window e, b.factor_lt e, b.nanos_lt e, fun _ => b.window_mono,
    fun _ => b.window_le_of_cap_le, b.window_of_cap_le, b.window_pos_iff e⟩

/-- A unit of one nanosecond and a cap beyond 32 bits: the power stops at the 32nd. -/
theorem window_closed_form_sample :
    (window ⟨.ofNanos 1, 40⟩ 31).toNanos = 2147483648 ∧
      (window ⟨.ofNanos 1, 40⟩ 32).toNanos = 4294967295 ∧
      (window ⟨.ofNanos 1, 40⟩ 31).toNanos ≤ (window ⟨.ofNanos 1, 40⟩ 32).toNanos ∧
      (window ⟨.ofNanos 1, 40⟩ 31).toNanos ≤ (window ⟨.ofNanos 1, 41⟩ 31).toNanos ∧
      window ⟨.ofNanos 1, 40⟩ 41 = window ⟨.ofNanos 1, 40⟩ 40 ∧
      0 < (window ⟨.ofNanos 1, 40⟩ 41).toNanos := by
  obtain ⟨last, -, -, grows, wider, -, -⟩ := window_closed_form ⟨.ofNanos 1, 40⟩ 31
  obtain ⟨first, -⟩ := window_closed_form ⟨.ofNanos 1, 40⟩ 32
  obtain ⟨-, -, -, -, -, still, some_time⟩ := window_closed_form ⟨.ofNanos 1, 40⟩ 41
  exact ⟨last.trans (by decide), first.trans (by decide), grows 32 (by decide),
    wider 41 (by decide), still (by decide), some_time.2 (by decide)⟩

end Backoff
end Steward

/-
# The digits that a double is written with

The decimal that stands for a double other than zero is not zero (`Shortest.decimal_pos`): a grid
point in the interval of the double is above the interval's lower end, and should no grid have such a
point, the seventeen digits of the value itself reach its first one. So the written digits, without
the zeros at their end, begin with a digit that is not zero (`Binary64.significant_stripZeros`).

Key definitions: `Text.Significant`.
Key theorems: `Shortest.decimal_pos`, `Binary64.significant_stripZeros`.
-/
import Mathlib.Data.List.DropRight
import Steward.Decimal.Shortest
import Steward.Proofs.Text.Digits

namespace Steward

open Text

namespace Binary64

theorem mantissa_pos {x : Binary64} (h : x.isZero = false) : 0 < x.mantissa := by
  rw [isZero, Bool.and_eq_false_iff, beq_eq_false_iff_ne, beq_eq_false_iff_ne] at h
  rw [mantissa]
  split
  · omega
  · simp only [hiddenBit]
    omega

end Binary64

namespace Shortest

/-! ### The decimal of a double is not zero -/

theorem interval_low_pos {x : Binary64} (h : x.isZero = false) : 0 < (interval x).low := by
  have mantissa := Binary64.mantissa_pos h
  have up : 0 < 1 <<< x.scale.toNat := by
    rw [Nat.one_shiftLeft]
    exact Nat.two_pow_pos _
  refine Nat.mul_pos ?_ up
  split <;> omega

theorem interval_value_pos {x : Binary64} (h : x.isZero = false) : 0 < (interval x).value := by
  have mantissa := Binary64.mantissa_pos h
  have up : 0 < 1 <<< x.scale.toNat := by
    rw [Nat.one_shiftLeft]
    exact Nat.two_pow_pos _
  exact Nat.mul_pos (by omega) up

theorem interval_unit_pos (x : Binary64) : 0 < (interval x).unit := by
  show 0 < 4 <<< (-x.scale).toNat
  rw [Nat.shiftLeft_eq]
  exact Nat.mul_pos (by decide) (Nat.two_pow_pos _)

variable {i : Interval}

theorem Interval.not_holds_zero (low : 0 < i.low) (e : Int) : i.holds 0 e = false := by
  have above : 0 < i.low * Nat.pow 10 (-e).toNat := Nat.mul_pos low (Nat.pow_pos (by decide))
  simp only [holds, Nat.zero_mul]
  split <;> simp only [Bool.and_eq_false_iff, decide_eq_false_iff_not] <;> omega

theorem Interval.neighbour?_pos (low : 0 < i.low) {e : Int} {d : Nat}
    (h : i.neighbour? e = some d) : 0 < d := by
  unfold neighbour? at h
  extract_lets step value n rest at h
  clear_value n rest
  by_cases here : i.holds n e = true
  · have pos : 0 < n := by
      refine Nat.pos_of_ne_zero fun zero => ?_
      rw [zero, i.not_holds_zero low] at here
      cases here
    rw [if_pos here] at h
    split at h <;> cases h <;> omega
  · rw [if_neg here] at h
    split at h <;> cases h
    omega

/-- The value reaches its first digit. -/
theorem le_value (value : 0 < i.value) : 10 ^ ((natDigits 10 i.value).length - 1) ≤ i.value := by
  by_contra small
  have some_digit := List.length_pos_iff.2 (natDigits_ne_nil i.value)
  by_cases one : (natDigits 10 i.value).length = 1
  · rw [one] at small
    exact small value
  · have fewer : (natDigits 10 i.value).length ≤ (natDigits 10 i.value).length - 1 :=
      length_natDigits_le (by omega) (by omega)
    omega

theorem unit_lt (i : Interval) : i.unit < 10 ^ (natDigits 10 i.unit).length := by
  have below := ofDigits_lt (natDigits 10 i.unit) fun _ => isDigit_of_mem_natDigits
  rwa [ofDigits_natDigits] at below

/-- Eighteen digits and more are enough to see that the value is not zero. -/
theorem grid_le_value (value : 0 < i.value) {n : Nat} (digits : 2 ≤ n) :
    i.unit * Nat.pow 10 (magnitude i - n).toNat ≤ i.value * Nat.pow 10 (n - magnitude i).toNat := by
  have some_digit := List.length_pos_iff.2 (natDigits_ne_nil i.value)
  have k_le : magnitude i ≤
      ((natDigits 10 i.value).length : Int) - (natDigits 10 i.unit).length + 1 := by
    unfold magnitude
    extract_lets k
    split <;> omega
  have exponents : (natDigits 10 i.unit).length + (magnitude i - n).toNat ≤
      (natDigits 10 i.value).length - 1 + (n - magnitude i).toNat := by omega
  calc i.unit * Nat.pow 10 (magnitude i - n).toNat
    _ ≤ 10 ^ (natDigits 10 i.unit).length * 10 ^ (magnitude i - n).toNat :=
      Nat.mul_le_mul_right _ (unit_lt i).le
    _ = 10 ^ ((natDigits 10 i.unit).length + (magnitude i - n).toNat) := (Nat.pow_add ..).symm
    _ ≤ 10 ^ ((natDigits 10 i.value).length - 1 + (n - magnitude i).toNat) :=
      Nat.pow_le_pow_right (by decide) exponents
    _ = 10 ^ ((natDigits 10 i.value).length - 1) * 10 ^ (n - magnitude i).toNat := Nat.pow_add ..
    _ ≤ i.value * Nat.pow 10 (n - magnitude i).toNat := Nat.mul_le_mul_right _ (le_value value)

theorem search_pos (low : 0 < i.low) (value : 0 < i.value) (unit : 0 < i.unit) :
    ∀ (tries n : Nat), 2 ≤ n + tries → 0 < (search i (magnitude i) tries n).1
  | 0, n, digits => by
    have step : 0 < i.unit * Nat.pow 10 (magnitude i - n).toNat :=
      Nat.mul_pos unit (Nat.pow_pos (by decide))
    exact Nat.div_pos (grid_le_value value (by omega)) step
  | tries + 1, n, digits => by
    rw [search]
    split
    · rename_i found
      exact i.neighbour?_pos low found
    · exact search_pos low value unit tries (n + 1) (by omega)

/-- The decimal of a double other than zero is not zero. -/
theorem decimal_pos {x : Binary64} (h : x.isZero = false) : 0 < (decimal x).1 :=
  search_pos (interval_low_pos h) (interval_value_pos h) (interval_unit_pos x) 17 1 (by decide)

end Shortest

/-! ### Digits without zeros at their end -/

/-- Whether the characters are digits, the first of them other than zero. -/
def Text.Significant (ds : List Char) : Prop :=
  ds ≠ [] ∧ (∀ c ∈ ds, isDigit c = true) ∧ ds.head? ≠ some '0'

theorem Binary64.significant_stripZeros {n : Nat} (pos : 0 < n) :
    Significant (stripZeros (natDigits 10 n)).1 := by
  have first : (natDigits 10 n).head? ≠ some '0' := by
    rw [natDigits, List.head?_reverse]
    exact getLast_digitsFrom pos (lt_pow_log2 n)
  obtain ⟨c, cs, digits, -⟩ := natDigits_eq_cons n
  rw [digits, List.head?_cons] at first
  have kept : (stripZeros (natDigits 10 n)).1 <+: c :: cs := by
    rw [← digits]
    exact List.rdropWhile_prefix _ _
  have some_kept : (stripZeros (natDigits 10 n)).1 ≠ [] := by
    intro none
    have zero := List.rdropWhile_eq_nil_iff.1 none c (by simp [digits])
    exact first (congrArg some (of_decide_eq_true zero))
  refine ⟨some_kept, fun d hd => isDigit_of_mem_natDigits (digits ▸ kept.subset hd), ?_⟩
  obtain ⟨d, ds, begins⟩ := List.exists_cons_of_ne_nil some_kept
  rw [begins] at kept ⊢
  rwa [List.head?_cons, (List.cons_prefix_cons.1 kept).1]

end Steward

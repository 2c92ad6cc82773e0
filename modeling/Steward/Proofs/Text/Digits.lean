/-
# Digits that are written and read

What is written of a number are decimal digits (`isDigit_of_mem_natDigits`), at least one, without a
zero in front unless it stands alone (`head_natDigits`), and they stand for the number
(`ofDigits_natDigits`). With zeros in front they stand for the same number (`ofDigits_padded`), and
they fill a width that the number fits (`length_padded`).

A run of digits is read as a whole if no digit follows it (`takeDigits_append`).

Key definitions: `Ends`.
Key theorems: `ofDigits_natDigits`, `head_natDigits`, `ofDigits_padded`, `length_padded`,
`takeWhile_digits`, `takeDigits_append`.
-/
import Mathlib.Algebra.Group.Nat.Defs
import Mathlib.Data.List.Induction
import Mathlib.Tactic.Common
import Steward.Text.Digits

namespace Steward
namespace Text

/-! ### One digit -/

theorem isDigit_digit {n : Nat} (h : n < 10) : isDigit (digit n) = true := by
  revert h
  revert n
  decide

theorem toNat_digit {n : Nat} (h : n < 10) : (digit n).toNat - 48 = n := by
  revert h
  revert n
  decide

theorem digit_ne_zero {n : Nat} (h : n < 10) (pos : 0 < n) : digit n ≠ '0' := by
  intro zero
  have value := toNat_digit h
  rw [zero] at value
  have none : '0'.toNat - 48 = 0 := by decide
  omega

theorem toNat_of_isDigit {c : Char} (h : isDigit c = true) : 48 ≤ c.toNat ∧ c.toNat ≤ 57 := by
  rw [isDigit, Bool.and_eq_true, decide_eq_true_eq, decide_eq_true_eq] at h
  exact h

/-- A run of digits begins with one. -/
theorem eq_cons_of_digits {ds : List Char} (ne : ds ≠ []) (digits : ∀ c ∈ ds, isDigit c = true) :
    ∃ c cs, ds = c :: cs ∧ isDigit c = true := by
  cases ds with
  | nil => exact absurd rfl ne
  | cons c cs => exact ⟨c, cs, rfl, digits c List.mem_cons_self⟩

/-! ### What digits stand for -/

theorem ofDigits_append_singleton (cs : List Char) (c : Char) :
    ofDigits (cs ++ [c]) = ofDigits cs * 10 + (c.toNat - 48) := by
  simp [ofDigits, List.foldl_append]

/-- Zeros in front do not count. -/
theorem ofDigits_replicate_append (k : Nat) (cs : List Char) :
    ofDigits (List.replicate k '0' ++ cs) = ofDigits cs := by
  have zeros : ofDigits (List.replicate k '0') = 0 := by
    induction k with
    | zero => rfl
    | succ k ih => rw [List.replicate_succ', ofDigits_append_singleton, ih]; rfl
  have split : ofDigits (List.replicate k '0' ++ cs) =
      cs.foldl (fun n c => n * 10 + (c.toNat - 48)) (ofDigits (List.replicate k '0')) := by
    rw [ofDigits, List.foldl_append]
    rfl
  rw [split, zeros]
  rfl

/-- Digits stand for less than the power of ten with that many zeros. -/
theorem ofDigits_lt (cs : List Char) (h : ∀ c ∈ cs, isDigit c = true) :
    ofDigits cs < 10 ^ cs.length := by
  induction cs using List.reverseRecOn with
  | nil => exact Nat.one_pos
  | append_singleton cs c ih =>
    have before := ih fun d hd => h d (List.mem_append_left _ hd)
    have value := toNat_of_isDigit (h c (List.mem_append_right _ (List.mem_singleton_self c)))
    rw [ofDigits_append_singleton, List.length_append, List.length_singleton, Nat.pow_succ]
    omega

/-! ### The digits of a number, the least first -/

theorem isDigit_of_mem_digitsFrom {c : Char} : ∀ {fuel n : Nat}, c ∈ digitsFrom 10 fuel n →
    isDigit c = true
  | 0, _, h => nomatch h
  | fuel + 1, n, h => by
    rw [digitsFrom] at h
    by_cases small : n < 10
    · rw [if_pos small, List.mem_singleton] at h
      rw [h]
      exact isDigit_digit small
    · rw [if_neg small, List.mem_cons] at h
      rcases h with h | h
      · rw [h]
        exact isDigit_digit (Nat.mod_lt _ (by decide))
      · exact isDigit_of_mem_digitsFrom h

theorem ofDigits_digitsFrom : ∀ {fuel n : Nat}, n < 10 ^ fuel →
    ofDigits (digitsFrom 10 fuel n).reverse = n
  | 0, n, h => by
    have zero : n = 0 := by simpa using h
    rw [zero]
    rfl
  | fuel + 1, n, h => by
    rw [digitsFrom]
    by_cases small : n < 10
    · rw [if_pos small]
      have value := toNat_digit small
      simpa [ofDigits] using value
    · rw [if_neg small, List.reverse_cons, ofDigits_append_singleton]
      have smaller : n / 10 < 10 ^ fuel := by
        rw [Nat.pow_succ] at h
        omega
      have value := toNat_digit (Nat.mod_lt n (show 10 > 0 by decide))
      rw [ofDigits_digitsFrom smaller, value]
      omega

theorem length_digitsFrom_le : ∀ {fuel width n : Nat}, 0 < width → n < 10 ^ width →
    (digitsFrom 10 fuel n).length ≤ width
  | 0, _, _, _, _ => Nat.zero_le _
  | fuel + 1, width, n, pos, h => by
    rw [digitsFrom]
    by_cases small : n < 10
    · rw [if_pos small]
      exact pos
    · rw [if_neg small, List.length_cons]
      have wide : 2 ≤ width := by
        by_contra narrow
        have one : width = 1 := by omega
        rw [one] at h
        omega
      obtain ⟨rest, rfl⟩ : ∃ rest, width = rest + 1 := ⟨width - 1, by omega⟩
      have smaller : n / 10 < 10 ^ rest := by
        rw [Nat.pow_succ] at h
        omega
      have later : (digitsFrom 10 fuel (n / 10)).length ≤ rest :=
        length_digitsFrom_le (by omega) smaller
      omega

/-- The greatest digit is no zero. -/
theorem getLast_digitsFrom : ∀ {fuel n : Nat}, 0 < n → n < 10 ^ fuel →
    (digitsFrom 10 fuel n).getLast? ≠ some '0'
  | 0, n, pos, h => by
    have zero : n = 0 := by simpa using h
    omega
  | fuel + 1, n, pos, h => by
    rw [digitsFrom]
    by_cases small : n < 10
    · rw [if_pos small]
      simpa using digit_ne_zero small pos
    · rw [if_neg small]
      have smaller : n / 10 < 10 ^ fuel := by
        rw [Nat.pow_succ] at h
        omega
      have later : (digitsFrom 10 fuel (n / 10)).getLast? ≠ some '0' :=
        getLast_digitsFrom (by omega) smaller
      have some_left : digitsFrom 10 fuel (n / 10) ≠ [] := by
        intro none
        have value := ofDigits_digitsFrom smaller
        rw [none] at value
        have zero : n / 10 = 0 := value.symm
        omega
      rwa [List.getLast?_cons_of_ne_nil some_left]

/-! ### The digits of a number -/

theorem lt_pow_log2 (n : Nat) : n < 10 ^ (n.log2 + 1) := by
  have two : n < 2 ^ (n.log2 + 1) := Nat.lt_log2_self
  exact Nat.lt_of_lt_of_le two (Nat.pow_le_pow_left (by decide) _)

theorem natDigits_ne_nil (n : Nat) : natDigits 10 n ≠ [] := by
  rw [natDigits, digitsFrom]
  split <;> simp

theorem isDigit_of_mem_natDigits {n : Nat} {c : Char} (h : c ∈ natDigits 10 n) :
    isDigit c = true :=
  isDigit_of_mem_digitsFrom (List.mem_reverse.1 h)

theorem ofDigits_natDigits (n : Nat) : ofDigits (natDigits 10 n) = n :=
  ofDigits_digitsFrom (lt_pow_log2 n)

theorem length_natDigits_le {width n : Nat} (pos : 0 < width) (h : n < 10 ^ width) :
    (natDigits 10 n).length ≤ width := by
  rw [natDigits, List.length_reverse]
  exact length_digitsFrom_le pos h

theorem natDigits_eq_cons (n : Nat) : ∃ c cs, natDigits 10 n = c :: cs ∧ isDigit c = true :=
  eq_cons_of_digits (natDigits_ne_nil n) fun _ => isDigit_of_mem_natDigits

/-- A zero in front stands alone. -/
theorem head_natDigits {n : Nat} (h : (natDigits 10 n).head? = some '0') :
    (natDigits 10 n).length = 1 := by
  by_cases zero : n = 0
  · rw [zero]
    rfl
  · rw [natDigits, List.head?_reverse] at h
    exact absurd h (getLast_digitsFrom (Nat.pos_of_ne_zero zero) (lt_pow_log2 n))

theorem isDigit_of_mem_padded {width n : Nat} {c : Char} (h : c ∈ padded width n) :
    isDigit c = true := by
  rw [padded, List.mem_append] at h
  rcases h with h | h
  · rw [List.eq_of_mem_replicate h]
    rfl
  · exact isDigit_of_mem_natDigits h

theorem ofDigits_padded (width n : Nat) : ofDigits (padded width n) = n := by
  rw [padded, ofDigits_replicate_append, ofDigits_natDigits]

theorem length_padded {width n : Nat} (pos : 0 < width) (h : n < 10 ^ width) :
    (padded width n).length = width := by
  have fits := length_natDigits_le pos h
  rw [padded, List.length_append, List.length_replicate]
  omega

theorem length_padded_pos (width n : Nat) : 0 < (padded width n).length := by
  have some_digit := List.length_pos_iff.2 (natDigits_ne_nil n)
  rw [padded, List.length_append]
  omega

theorem padded_eq_cons (width n : Nat) :
    ∃ c cs, padded width n = c :: cs ∧ isDigit c = true :=
  eq_cons_of_digits (List.length_pos_iff.1 (length_padded_pos width n))
    fun _ => isDigit_of_mem_padded

/-! ### Reading -/

/-- No digit comes next. -/
def Ends (cs : List Char) : Prop := ∀ c, cs.head? = some c → isDigit c = false

theorem Ends.cons {c : Char} {cs : List Char} (h : isDigit c = false) : Ends (c :: cs) := by
  intro c' e
  rwa [← Option.some.inj e]

/-- A run of digits is taken as a whole if no digit follows it. -/
theorem takeWhile_digits {ds rest : List Char} (digits : ∀ c ∈ ds, isDigit c = true)
    (ends : Ends rest) : (ds ++ rest).takeWhile isDigit = ds := by
  rw [List.takeWhile_append_of_pos digits]
  cases rest with
  | nil => rw [List.takeWhile_nil, List.append_nil]
  | cons c cs =>
    have stop : ¬ isDigit c = true := by rw [ends c rfl]; exact Bool.false_ne_true
    rw [List.takeWhile_cons_of_neg stop, List.append_nil]

theorem takeDigits_append {least most : Nat} {ds rest : List Char}
    (digits : ∀ c ∈ ds, isDigit c = true) (ends : Ends rest) (enough : least ≤ ds.length)
    (fits : ds.length ≤ most) : takeDigits least most (ds ++ rest) = some (ofDigits ds, rest) := by
  rw [takeDigits, takeWhile_digits digits ends, List.take_of_length_le fits]
  rw [if_neg (Nat.not_lt.2 enough), List.drop_left]

end Text
end Steward

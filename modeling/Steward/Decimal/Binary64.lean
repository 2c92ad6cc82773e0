/-
# Numbers of double precision

A finite double is a sign, a biased exponent and 52 bits of fraction. Everything about it is done on
natural numbers: its magnitude is `mantissa · 2 ^ scale`, and a ratio is brought to the nearest
double, a half going to the even neighbour.

Key definitions: `Binary64`, `Binary64.ofRatio`, `Binary64.ofDecimal`, `Binary64.times`,
`Binary64.quotient`.
-/
namespace Steward

/-- The number of fractions, 2⁵²: the weight of the bit that is not stored. -/
abbrev hiddenBit : Nat := 4503599627370496

/-- A finite number of double precision. -/
structure Binary64 where
  negative : Bool
  exponent : Nat
  fraction : Nat
  exponent_lt : exponent < 2047 := by decide
  fraction_lt : fraction < hiddenBit := by decide
deriving DecidableEq

namespace Binary64

/-- Zero with the given sign. -/
def zero (negative : Bool) : Binary64 := { negative, exponent := 0, fraction := 0 }

instance : Inhabited Binary64 := ⟨zero false⟩

def isZero (x : Binary64) : Bool := x.exponent == 0 && x.fraction == 0

/-- Whether two doubles stand for the same number; the two zeros do. -/
def same (x y : Binary64) : Bool := x == y || (x.isZero && y.isZero)

def negate (x : Binary64) : Binary64 := { x with negative := !x.negative }

/-- The integer that, times two to the `scale`, is the magnitude. -/
def mantissa (x : Binary64) : Nat := if x.exponent = 0 then x.fraction else hiddenBit + x.fraction

/-- The power of two that the mantissa is counted in. -/
def scale (x : Binary64) : Int := (max x.exponent 1 : Nat) - 1075

/-- The magnitude as a ratio of natural numbers. -/
def ratio (x : Binary64) : Nat × Nat :=
  (x.mantissa <<< x.scale.toNat, 1 <<< (-x.scale).toNat)

/-! ### Rounding -/

/-- The quotient rounded to the nearest natural number, a half to the even one. -/
def nearest (num den : Nat) : Nat :=
  let q := num / den
  let r := num % den
  if 2 * r > den ∨ (2 * r = den ∧ q % 2 = 1) then q + 1 else q

/-- The double with a mantissa of at most 2⁵³ counted in a power of two, if it is not too large; a
mantissa below 2⁵² belongs to the least scale only. -/
def assemble (negative : Bool) (m : Nat) (q : Int) : Option Binary64 :=
  let (m, q) := if m = 2 * hiddenBit then (hiddenBit, q + 1) else (m, q)
  let e := if m < hiddenBit then 0 else (q + 1075).toNat
  if h : e < 2047 ∧ m % hiddenBit < hiddenBit then
    some ⟨negative, e, m % hiddenBit, h.1, h.2⟩
  else none

/-- The double nearest to a ratio, if the ratio is not beyond the largest. -/
def ofRatio (negative : Bool) (num den : Nat) : Option Binary64 :=
  if num = 0 then some (zero negative)
  else
    let e : Int := (num.log2 : Int) - den.log2
    let atLeast : Bool := den <<< e.toNat ≤ num <<< (-e).toNat
    let q := max (-1074) (if atLeast then e - 52 else e - 53)
    assemble negative (nearest (num <<< (-q).toNat) (den <<< q.toNat)) q

/-- The double nearest to a decimal number, if that is not beyond the largest. Exponents far out of
range are settled without computing the power. -/
def ofDecimal (negative : Bool) (digits : Nat) (exponent : Int) : Option Binary64 :=
  if digits = 0 then some (zero negative)
  else if exponent > 400 then none
  else if (digits.log2 : Int) < -3 * (exponent + 400) then some (zero negative)
  else ofRatio negative (digits * Nat.pow 10 exponent.toNat) (Nat.pow 10 (-exponent).toNat)

/-- The rounded product. -/
def times (x y : Binary64) : Option Binary64 :=
  ofRatio (x.negative != y.negative) (x.ratio.1 * y.ratio.1) (x.ratio.2 * y.ratio.2)

/-- The rounded quotient; there is none by zero. -/
def quotient (x y : Binary64) : Option Binary64 :=
  if y.isZero then none
  else ofRatio (x.negative != y.negative) (x.ratio.1 * y.ratio.2) (x.ratio.2 * y.ratio.1)

example : (ofDecimal false 1 (-1)).map mantissa = some 0x1999999999999a := by
  decide +kernel
example : ofDecimal false 5 (-324) = some { negative := false, exponent := 0, fraction := 1 } := by
  decide +kernel
example : (ofDecimal true 1 (-999999999)).map isZero = some true := by decide +kernel
example : ofDecimal false 18 308 = none := by
  decide +kernel

end Binary64
end Steward

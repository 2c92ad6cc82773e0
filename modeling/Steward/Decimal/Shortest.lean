/-
# The fewest decimal digits that read back

The reals that round to a double form an interval, ends included when the mantissa is even. For one
digit, two digits and so on up to seventeen, the two neighbours of the value on the grid of decimals
with that many digits are tried: the first grid with a neighbour inside the interval gives the
digits, the nearer neighbour if both are inside.

Key definitions: `Shortest.decimal`, `Binary64.chars`.
-/
import Steward.Decimal.Binary64
import Steward.Text.Digits

namespace Steward
namespace Shortest

/-- The interval of a double, everything counted in one small unit: bounds and value over a common
denominator, and whether the bounds belong to it. -/
structure Interval where
  low : Nat
  value : Nat
  high : Nat
  unit : Nat
  closed : Bool

/-- The reals that round to the double; below a power of two the neighbour is half as far away. -/
def interval (x : Binary64) : Interval :=
  let up := 1 <<< x.scale.toNat
  let m := x.mantissa
  let down := if x.fraction = 0 ∧ x.exponent > 1 then 1 else 2
  { low := (4 * m - down) * up
    value := 4 * m * up
    high := (4 * m + 2) * up
    unit := 4 <<< (-x.scale).toNat
    closed := m % 2 = 0 }

/-- Whether the decimal `n · 10 ^ e` lies in the interval. -/
def Interval.holds (i : Interval) (n : Nat) (e : Int) : Bool :=
  let v := n * Nat.pow 10 e.toNat * i.unit
  let t := Nat.pow 10 (-e).toNat
  if i.closed then i.low * t ≤ v && v ≤ i.high * t else i.low * t < v && v < i.high * t

/-- The neighbour of the value on the grid of step `10 ^ e` that lies in the interval, the nearer of
two, the even one of two equally near. -/
def Interval.neighbour? (i : Interval) (e : Int) : Option Nat :=
  let step := Nat.pow 10 e.toNat * i.unit
  let value := i.value * Nat.pow 10 (-e).toNat
  let n := value / step
  let rest := value % step
  if i.holds n e then
    if i.holds (n + 1) e && (2 * rest > step || (2 * rest == step && n % 2 == 1)) then some (n + 1)
    else some n
  else if i.holds (n + 1) e then some (n + 1)
  else none

/-- The least `k` with the value below `10 ^ k`. -/
def magnitude (i : Interval) : Int :=
  let k : Int := (Text.natDigits 10 i.value).length - (Text.natDigits 10 i.unit).length
  if i.value * Nat.pow 10 (-k).toNat < i.unit * Nat.pow 10 k.toNat then k else k + 1

/-- Tries grids of `n`, `n + 1`, … digits below `10 ^ k`. -/
def search (i : Interval) (k : Int) : (tries n : Nat) → Nat × Int
  | 0, n => (i.value * Nat.pow 10 (n - k).toNat / (i.unit * Nat.pow 10 (k - n).toNat), k - n)
  | tries + 1, n =>
    match i.neighbour? (k - n) with
    | some d => (d, k - n)
    | none => search i k tries (n + 1)

/-- The shortest decimal `(n, e)`, standing for `n · 10 ^ e`, of a double other than zero. -/
def decimal (x : Binary64) : Nat × Int :=
  let i := interval x
  search i (magnitude i) 17 1

end Shortest

/-! ### The written form

A magnitude from 10⁻⁵ up to below 10¹⁶ is written positionally, with `.0` if it is whole; any other
has one digit before the point and an exponent with its sign. -/

namespace Binary64

open Text

/-- The digits without the zeros at their end, and how many those were. -/
def stripZeros (ds : List Char) : List Char × Nat :=
  let kept := (ds.reverse.dropWhile (· = '0')).reverse
  (kept, ds.length - kept.length)

/-- The digits with the decimal point `point` places after their start. -/
def positional (ds : List Char) (point : Int) : List Char :=
  if point ≤ 0 then '0' :: '.' :: List.replicate (-point).toNat '0' ++ ds
  else if ds.length ≤ point then
    ds ++ List.replicate (point - ds.length).toNat '0' ++ ['.', '0']
  else ds.take point.toNat ++ '.' :: ds.drop point.toNat

/-- The digits with a point after the first and the exponent `e`. -/
def scientific (ds : List Char) (e : Int) : List Char :=
  ds.take 1 ++ (if ds.length ≤ 1 then [] else '.' :: ds.drop 1) ++
    'e' :: (if e < 0 then '-' else '+') :: natDigits 10 e.natAbs

/-- The text of a double. -/
def chars (x : Binary64) : List Char :=
  let sign := if x.negative then ['-'] else []
  if x.isZero then sign ++ ['0', '.', '0']
  else
    let (n, e) := Shortest.decimal x
    let (ds, zeros) := stripZeros (natDigits 10 n)
    let point := e + zeros + ds.length
    sign ++ (if -5 < point ∧ point ≤ 16 then positional ds point else scientific ds (point - 1))

example : (ofDecimal false 1 (-1)).map chars = some "0.1".toList := by decide +kernel
example :
    (ofDecimal true 18446744073709551616 0).map chars = some "-1.8446744073709552e+19".toList := by
  decide +kernel
example : (ofDecimal false 5 (-324)).map chars = some "5e-324".toList := by decide +kernel
example : (ofDecimal false 1 (-5)).map chars = some "0.00001".toList ∧
    (ofDecimal false 1 (-6)).map chars = some "1e-6".toList := by decide +kernel
example : (ofDecimal false 1 15).map chars = some "1000000000000000.0".toList ∧
    (ofDecimal false 1 16).map chars = some "1e+16".toList := by decide +kernel

end Binary64
end Steward

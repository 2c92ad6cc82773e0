/-
# Runs of decimal digits

Numbers in texts are read from ASCII digits and written with them.

Key definitions: `digitValue?`, `ofDigits`, `natText`, `padded`, `takeDigits`.
-/
namespace Steward
namespace Text

def isDigit (c : Char) : Bool := '0' ≤ c && c ≤ '9'

/-- The value of a digit in some base up to sixteen; letters count in either case. -/
def digitValue? (base : Nat) (c : Char) : Option Nat :=
  let v :=
    if '0' ≤ c ∧ c ≤ '9' then some (c.toNat - 48)
    else if 'a' ≤ c ∧ c ≤ 'f' then some (c.toNat - 87)
    else if 'A' ≤ c ∧ c ≤ 'F' then some (c.toNat - 55)
    else none
  v.filter (· < base)

/-- The number that decimal digits stand for; other characters count as their distance from `0`. -/
def ofDigits (cs : List Char) : Nat := cs.foldl (fun n c => n * 10 + (c.toNat - 48)) 0

/-- The number that digits of a base stand for, if there is a digit and nothing else. -/
def ofDigits? (base : Nat) (cs : List Char) : Option Nat :=
  if cs.isEmpty then none
  else cs.foldlM (fun n c => (digitValue? base c).map (n * base + ·)) 0

/-- The digit for a value below sixteen, letters in lower case. -/
def digit (n : Nat) : Char := if n < 10 then Char.ofNat (48 + n) else Char.ofNat (87 + n)

/-- The digits of a number in a base, the least first, with fuel for the number of digits. -/
def digitsFrom (base : Nat) : Nat → Nat → List Char
  | 0, _ => []
  | fuel + 1, n =>
    if n < base then [digit n] else digit (n % base) :: digitsFrom base fuel (n / base)

/-- The digits of a number in a base of at least two, without leading zeros. -/
def natDigits (base n : Nat) : List Char := (digitsFrom base (n.log2 + 1) n).reverse

/-- The decimal text of a number. -/
def natText (n : Nat) : String := String.ofList (natDigits 10 n)

/-- The decimal digits with zeros in front up to a width. -/
def padded (width n : Nat) : List Char :=
  let ds := natDigits 10 n
  List.replicate (width - ds.length) '0' ++ ds

/-- The first `most` digits of the characters as a number, and what follows them; there must be at
least `least`. -/
def takeDigits (least most : Nat) (cs : List Char) : Option (Nat × List Char) :=
  let ds := (cs.takeWhile isDigit).take most
  if ds.length < least then none else some (ofDigits ds, cs.drop ds.length)

example : natText 0 = "0" ∧ natText 1024 = "1024" ∧ padded 4 7 = ['0', '0', '0', '7'] := by decide
example : natDigits 16 255 = ['f', 'f'] ∧ ofDigits? 16 ['F', 'f'] = some 255 := by decide
example : takeDigits 1 2 ['1', '2', '3', 'x'] = some (12, ['3', 'x']) := by decide

end Text
end Steward

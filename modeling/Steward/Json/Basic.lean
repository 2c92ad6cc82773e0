/-
# JSON values

A number keeps whether it was written as an integer or with a fraction or exponent, so `1` and `1.0`
differ, while `0.0` and `-0.0` are one value. A value that was read has the fields of its objects in
ascending order of their names, each name once; a record that is written has them in its own order.

Key definitions: `Json`, `Json.same`, `Json.ofFields`, `Json.field?`.
-/
import Steward.Decimal.Shortest
import Steward.NameMap

namespace Steward

/-- A number, by the form in which it was written. -/
inductive Number where
  | integer (n : Int)
  | binary (x : Binary64)
deriving DecidableEq

inductive Json where
  | null
  | bool (b : Bool)
  | number (n : Number)
  | string (s : String)
  | array (items : List Json)
  | object (fields : List (String × Json))

/-- Whether two numbers have one form and one value. -/
def Number.same : Number → Number → Bool
  | .integer a, .integer b => a == b
  | .binary x, .binary y => x.same y
  | _, _ => false

namespace Json

instance : Inhabited Json := ⟨null⟩

mutual

/-- Whether two values are equal. -/
def same : Json → Json → Bool
  | null, null => true
  | bool a, bool b => a == b
  | number a, number b => a.same b
  | string a, string b => a == b
  | array a, array b => sameItems a b
  | object a, object b => sameFields a b
  | _, _ => false

def sameItems : List Json → List Json → Bool
  | [], [] => true
  | a :: as, b :: bs => same a b && sameItems as bs
  | _, _ => false

def sameFields : List (String × Json) → List (String × Json) → Bool
  | [], [] => true
  | (j, a) :: as, (k, b) :: bs => j == k && same a b && sameFields as bs
  | _, _ => false

end

/-- The integer as a value. -/
def int (n : Int) : Json := number (.integer n)

/-- The natural number as a value. -/
def nat (n : Nat) : Json := number (.integer n)

/-- The object with the fields of a list; of two with one name the later counts. -/
def ofFields (fs : List (String × Json)) : Json :=
  object (fs.foldl (fun m f => NameMap.insertEntry f.1 f.2 m) [])

/-- The value in an object's field. -/
def field? : Json → String → Option Json
  | object fs, k => fs.lookup k
  | _, _ => none

/-- The text, if the value is one. -/
def string? : Json → Option String
  | string s => some s
  | _ => none

end Json
end Steward

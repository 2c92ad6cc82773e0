/-
# Records in JSON

A record is an object with its fields in any order, others ignored, or an array of its fields in the
order of their declaration, where fields at the end may be missing. A word of a finite kind is its
string, or an object with that one field and `null` in it. Nothing is `null`.

A value never repeats a field. Text may, and a record that repeats one of its own fields is refused.

Key definitions: `Json.format`, `Document.format`.
-/
import Steward.Format
import Steward.Json.Document

namespace Steward

/-- The fields that an array gives in order, if it gives no more than there are. -/
def positionalFields {δ : Type} (names : List String) (xs : List δ) : Option (List (String × δ)) :=
  if names.length < xs.length then none else some (names.zip xs)

namespace Json

/-- Records in JSON values. -/
def format : Format Option Json where
  text := string?
  integer low high
    | number (.integer n) => if low ≤ n ∧ n ≤ high then some n else none
    | _ => none
  flag
    | bool b => some b
    | _ => none
  optional
    | null => some none
    | j => some (some j)
  items
    | array xs => some xs
    | _ => none
  entries
    | object fs => some fs
    | _ => none
  fields names
    | object fs => some (fs.filter fun f => names.contains f.1)
    | array xs => positionalFields names xs
    | _ => none
  word _
    | string s => some s
    | object [(s, null)] => some s
    | _ => none
  json := some

end Json

namespace Document

/-- The names of an object's fields, if each is text. -/
def named (fs : List (Option String × Document)) : Option (List (String × Document)) :=
  fs.mapM fun (k, v) => k.map (·, v)

/-- Whether no name occurs twice. -/
def distinct (names : List String) : Bool := decide names.Nodup

/-- Records in JSON text. A value may lie in at most 127 brackets. -/
def format : Format Option Document where
  text
    | string s => s
    | _ => none
  integer low high
    | number n =>
      match n.number? with
      | some (.integer v) => if low ≤ v ∧ v ≤ high then some v else none
      | _ => none
    | _ => none
  flag
    | bool b => some b
    | _ => none
  optional
    | null => some none
    | d => some (some d)
  items
    | array xs => some xs
    | _ => none
  entries
    | object fs => named fs
    | _ => none
  fields names
    | object fs => do
      let fs := (← named fs).filter fun f => names.contains f.1
      if distinct (fs.map Prod.fst) then some fs else none
    | array xs => positionalFields names xs
    | _ => none
  word _
    | string s => s
    | object [(s, null)] => s
    | _ => none
  json := toJson? 127

end Document
end Steward

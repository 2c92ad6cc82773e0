/-
# What plain scalars mean

A text without quotes may be nothing, a truth value, an integer or a real number; anything else is
text. Integers are decimal without leading zeros, or digits after `0x`, `0o` or `0b`. An integer of
more than 128 bits is read as a real number.

Key definitions: `Yaml.isNull`, `Yaml.flag?`, `Yaml.natural?`, `Yaml.integer?`, `Yaml.real?`,
`Yaml.meaning`.
-/
import Steward.Decimal.Binary64
import Steward.Text.Digits

namespace Steward
namespace Yaml

/-- Whether the text is a word for nothing. -/
def isNull (s : String) : Bool := ["null", "Null", "NULL", "~"].contains s

/-- The truth value that a word stands for. -/
def flag? (s : String) : Option Bool :=
  if ["true", "True", "TRUE"].contains s then some true
  else if ["false", "False", "FALSE"].contains s then some false
  else none

/-! ### Integers -/

/-- Whether a zero stands in front of more digits and of nothing else. -/
def hasLeadingZero : List Char → Bool
  | '0' :: c :: r => (c :: r).all Text.isDigit
  | _ => false

/-- The characters after a sign. -/
def unsigned : List Char → List Char
  | '+' :: r => r
  | '-' :: r => r
  | r => r

/-- The number that characters without a sign stand for. -/
def magnitude? : List Char → Option Nat
  | '0' :: 'x' :: r => Text.ofDigits? 16 r
  | '0' :: 'o' :: r => Text.ofDigits? 8 r
  | '0' :: 'b' :: r => Text.ofDigits? 2 r
  | r => if hasLeadingZero r then none else Text.ofDigits? 10 r

/-- A natural number; it may have a plus in front. -/
def natural? : List Char → Option Nat
  | '+' :: r => magnitude? r
  | r => magnitude? r

/-- An integer, with or without a sign. -/
def integer? : List Char → Option Int
  | '-' :: r => (magnitude? r).map fun n => -(n : Int)
  | r => (natural? r).map fun n => (n : Int)

/-! ### Real numbers -/

/-- A real number as it is written. -/
inductive Real where
  | finite (x : Binary64)
  | infinite (negative : Bool)
  | undefined
deriving DecidableEq

/-- The power of ten behind the digits of a number, which must be all that is left. -/
def exponent? : List Char → Option Int
  | [] => some 0
  | c :: r =>
    if c = 'e' ∨ c = 'E' then
      match r with
      | '-' :: r => (Text.ofDigits? 10 r).map fun n => -(n : Int)
      | '+' :: r => (Text.ofDigits? 10 r).map fun n => (n : Int)
      | r => (Text.ofDigits? 10 r).map fun n => (n : Int)
    else none

/-- Digits with a point among them or not, then an exponent or not; none if beyond the largest
double. -/
def decimal? (negative : Bool) (cs : List Char) : Option Binary64 :=
  let whole := cs.takeWhile Text.isDigit
  let rest := cs.drop whole.length
  let fraction := if rest.head? = some '.' then (rest.drop 1).takeWhile Text.isDigit else []
  let rest := if rest.head? = some '.' then rest.drop (fraction.length + 1) else rest
  if whole.isEmpty ∧ fraction.isEmpty then none
  else (exponent? rest).bind fun e =>
    Binary64.ofDecimal negative (Text.ofDigits (whole ++ fraction)) (e - fraction.length)

/-- A real number, with or without a sign; what is no number has none. -/
def real? (cs : List Char) : Option Real :=
  let negative := cs.head? = some '-'
  if [".nan", ".NaN", ".NAN"].contains (String.ofList cs) then some .undefined
  else if [".inf", ".Inf", ".INF"].contains (String.ofList (unsigned cs)) then
    some (.infinite negative)
  else (decimal? negative (unsigned cs)).map .finite

/-! ### Meanings -/

inductive Meaning where
  | null
  | flag (b : Bool)
  | integer (n : Int)
  | real (x : Real)
  | text
deriving DecidableEq

/-- Whether an integer has at most 128 bits, with or without a sign. -/
def fits128 (n : Int) : Bool := -(1 <<< 127 : Nat) ≤ n && n < (1 <<< 128 : Nat)

/-- What a plain scalar without a tag means. -/
def meaning (s : String) : Meaning :=
  let cs := s.toList
  if s = "" ∨ isNull s then .null
  else
    match flag? s, (integer? cs).filter fits128 with
    | some b, _ => .flag b
    | none, some n => .integer n
    | none, none =>
      if hasLeadingZero (unsigned cs) then .text
      else
        match real? cs with
        | some x => .real x
        | none => .text

example : meaning "0o17" = .integer 15 ∧ meaning "-0b101" = .integer (-5) := by decide +kernel
example : meaning "017" = .text ∧ meaning "1_000" = .text := by decide +kernel
example : meaning "-.INF" = .real (.infinite true) ∧ meaning ".nan" = .real .undefined := by
  decide +kernel

end Yaml
end Steward

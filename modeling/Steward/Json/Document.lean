/-
# JSON as it is written

A document keeps what a value forgets: the spelling of numbers, the order and repetition of fields,
and escapes that stand for no character. A record read from text looks only at the parts it knows,
so a number too large for a double or a lone half of a surrogate pair does no harm where nothing
reads it.

Key definitions: `Document`, `Document.parse?`, `Document.toJson?`, `Json.parse?`.
-/
import Steward.Json.Basic

namespace Steward

open Text

/-- A number by its digits. -/
structure Numeral where
  negative : Bool
  whole : List Char
  fraction : Option (List Char)
  exponent : Option (Bool × List Char)
deriving DecidableEq

inductive Document where
  | null
  | bool (b : Bool)
  | number (n : Numeral)
  /-- A string, unless its escapes stand for no text. -/
  | string (s : Option String)
  | array (items : List Document)
  | object (fields : List (Option String × Document))

/-! ### Numbers

A numeral without fraction and exponent that fits 64 bits, signed or not, is an integer, except
`-0`. Any other number is a double: its leading digits, as many as fit 64 bits, are rounded and then
multiplied or divided by a rounded power of ten, which may end beside the nearest double. -/

namespace Numeral

/-- The digits of a number read so far: their value, the power of ten it is counted in, and whether
a digit was left out for want of room. -/
structure Significand where
  value : Nat
  exponent : Int
  full : Bool

/-- Takes a digit; one without room counts only by its place, and so do all after it. -/
def Significand.push (s : Significand) (c : Char) (inFraction : Bool) : Significand :=
  let v := s.value * 10 + (c.toNat - 48)
  if s.full || UInt64.size ≤ v then
    { s with exponent := s.exponent + (if inFraction then 0 else 1), full := true }
  else { s with value := v, exponent := s.exponent - (if inFraction then 1 else 0) }

/-- The digits before the point, then those after it. The point makes room count anew. -/
def significand (n : Numeral) : Significand :=
  let s := n.whole.foldl (fun s c => s.push c false) ⟨0, 0, false⟩
  match n.fraction with
  | none => s
  | some ds => ds.foldl (fun s c => s.push c true) { s with full := false }

/-- Brings a rounded significand to its power of ten, by steps of 308 where one power is too small.
-/
def raise (x : Binary64) : (steps : Nat) → (e : Int) → Option Binary64
  | 0, _ => if x.isZero then some x else none
  | steps + 1, e =>
    if e.natAbs ≤ 308 then
      match Binary64.ofDecimal false 1 e.natAbs with
      | some p => if 0 ≤ e then x.times p else x.quotient p
      | none => none
    else if x.isZero then some x
    else if 0 ≤ e then none
    else
      match (Binary64.ofDecimal false 1 308).bind x.quotient with
      | some y => raise y steps (e + 308)
      | none => none

/-- The double of a numeral, if it has one. An exponent beyond 32 bits makes zero or no double. -/
def binary? (n : Numeral) : Option Binary64 := do
  let s := n.significand
  let signed (x : Binary64) := if n.negative then x.negate else x
  match n.exponent with
  | none =>
    let x ← Binary64.ofRatio false s.value 1
    (raise x 5 s.exponent).map signed
  | some (negative, ds) =>
    let e := ofDigits ds
    if UInt32.size / 2 ≤ e then
      if s.value ≠ 0 ∧ !negative then none else some (.zero n.negative)
    else
      let x ← Binary64.ofRatio false s.value 1
      (raise x 5 (s.exponent + (if negative then -(e : Int) else e))).map signed

/-- The number that a numeral stands for, if it is in range. -/
def number? (n : Numeral) : Option Number :=
  let v := ofDigits n.whole
  if n.fraction.isNone ∧ n.exponent.isNone ∧
      (if n.negative then 0 < v ∧ v ≤ UInt64.size / 2 else v < UInt64.size) then
    some (.integer (if n.negative then -(v : Int) else v))
  else n.binary?.map .binary

end Numeral

namespace Document

instance : Inhabited Document := ⟨null⟩

/-! ### Reading -/

/-- Drops the blanks of JSON. -/
def skip (cs : List Char) : List Char :=
  cs.dropWhile fun c => c = ' ' || c = '\n' || c = '\t' || c = '\r'

/-- A part of a string: a character, or the code unit of an escape. -/
inductive Piece where
  | char (c : Char)
  | unit (n : Nat)

/-- The character that a letter stands for after a backslash. -/
def escaped? : Char → Option Char
  | '"' => some '"'
  | '\\' => some '\\'
  | '/' => some '/'
  | 'b' => some '\x08'
  | 'f' => some '\x0c'
  | 'n' => some '\n'
  | 'r' => some '\r'
  | 't' => some '\t'
  | _ => none

/-- The parts of a string up to its closing quote. -/
def readPieces : List Char → Option (List Piece × List Char)
  | [] => none
  | '"' :: r => some ([], r)
  | '\\' :: 'u' :: a :: b :: c :: d :: r => do
    let n ← ofDigits? 16 [a, b, c, d]
    let (ps, r) ← readPieces r
    some (.unit n :: ps, r)
  | '\\' :: e :: r => do
    let c ← escaped? e
    let (ps, r) ← readPieces r
    some (.char c :: ps, r)
  | c :: r =>
    if c.toNat < 0x20 then none
    else do
      let (ps, r) ← readPieces r
      some (.char c :: ps, r)

/-- The text of the parts; two code units of a surrogate pair make one character, and neither counts
without the other. -/
def pieceChars : List Piece → Option (List Char)
  | [] => some []
  | .char c :: ps => (pieceChars ps).map (c :: ·)
  | [.unit n] => if 0xD800 ≤ n ∧ n < 0xE000 then none else some [Char.ofNat n]
  | .unit n :: .char c :: ps =>
    if 0xD800 ≤ n ∧ n < 0xE000 then none
    else (pieceChars ps).map (Char.ofNat n :: c :: ·)
  | .unit n :: .unit m :: ps =>
    if 0xD800 ≤ n ∧ n < 0xDC00 then
      if 0xDC00 ≤ m ∧ m < 0xE000 then
        (pieceChars ps).map (Char.ofNat (0x10000 + (n - 0xD800) * 1024 + (m - 0xDC00)) :: ·)
      else none
    else if 0xDC00 ≤ n ∧ n < 0xE000 then none
    else (pieceChars (.unit m :: ps)).map (Char.ofNat n :: ·)

/-- A string after its opening quote. -/
def readString (cs : List Char) : Option (Option String × List Char) :=
  (readPieces cs).map fun (ps, r) => ((pieceChars ps).map String.ofList, r)

/-- A run of digits with at least one of them. -/
def readDigits (cs : List Char) : Option (List Char × List Char) :=
  let ds := cs.takeWhile isDigit
  if ds.isEmpty then none else some (ds, cs.drop ds.length)

/-- The part of a number after its point, if there is one. -/
def readFraction : List Char → Option (Option (List Char) × List Char)
  | '.' :: r => (readDigits r).map fun (ds, r) => (some ds, r)
  | r => some (none, r)

/-- The exponent of a number, if there is one. -/
def readExponent : List Char → Option (Option (Bool × List Char) × List Char)
  | c :: r =>
    if c = 'e' ∨ c = 'E' then
      let (negative, r) := match r with
        | '-' :: r => (true, r)
        | '+' :: r => (false, r)
        | r => (false, r)
      (readDigits r).map fun (ds, r) => (some (negative, ds), r)
    else some (none, c :: r)
  | [] => some (none, [])

/-- A number; a zero before the point or exponent stands alone. -/
def readNumeral (cs : List Char) : Option (Numeral × List Char) := do
  let (negative, cs) := match cs with
    | '-' :: r => (true, r)
    | r => (false, r)
  let (whole, cs) ← readDigits cs
  if whole.head? = some '0' ∧ whole.length > 1 then none
  else
    let (fraction, cs) ← readFraction cs
    let (exponent, cs) ← readExponent cs
    some (⟨negative, whole, fraction, exponent⟩, cs)

/-- What follows a word that the characters start with. -/
def afterWord : List Char → List Char → Option (List Char)
  | [], cs => some cs
  | w :: ws, c :: cs => if w = c then afterWord ws cs else none
  | _ :: _, [] => none

mutual

/-- A value, after blanks. The fuel bounds the steps; twice the length of the text is enough. -/
def readValue : Nat → List Char → Option (Document × List Char)
  | 0, _ => none
  | fuel + 1, cs =>
    match skip cs with
    | '"' :: r => (readString r).map fun (s, r) => (string s, r)
    | '[' :: r =>
      match skip r with
      | ']' :: r => some (array [], r)
      | r => (readItems fuel r).map fun (xs, r) => (array xs, r)
    | '\x7b' :: r =>
      match skip r with
      | '\x7d' :: r => some (object [], r)
      | r => (readFields fuel r).map fun (fs, r) => (object fs, r)
    | 'n' :: r => (afterWord "ull".toList r).map fun r => (null, r)
    | 't' :: r => (afterWord "rue".toList r).map fun r => (bool true, r)
    | 'f' :: r => (afterWord "alse".toList r).map fun r => (bool false, r)
    | r => (readNumeral r).map fun (n, r) => (number n, r)

/-- The items of an array and its closing bracket. -/
def readItems : Nat → List Char → Option (List Document × List Char)
  | 0, _ => none
  | fuel + 1, cs => do
    let (x, r) ← readValue fuel cs
    match skip r with
    | ',' :: r => do
      let (xs, r) ← readItems fuel r
      some (x :: xs, r)
    | ']' :: r => some ([x], r)
    | _ => none

/-- The fields of an object and its closing brace. -/
def readFields : Nat → List Char → Option (List (Option String × Document) × List Char)
  | 0, _ => none
  | fuel + 1, cs =>
    match skip cs with
    | '"' :: r => do
      let (k, r) ← readString r
      match skip r with
      | ':' :: r => do
        let (v, r) ← readValue fuel r
        match skip r with
        | ',' :: r => do
          let (fs, r) ← readFields fuel r
          some ((k, v) :: fs, r)
        | '\x7d' :: r => some ([(k, v)], r)
        | _ => none
      | _ => none
    | _ => none

end

/-- The document that a text consists of. -/
def parse? (s : String) : Option Document :=
  let cs := s.toList
  match readValue (2 * cs.length + 1) cs with
  | some (d, r) => if (skip r).isEmpty then some d else none
  | none => none

/-! ### The value of a document -/

mutual

/-- The value, if every number is in range, every string is text and no part lies deeper than
`depth` brackets. -/
def toJson? : (depth : Nat) → Document → Option Json
  | _, null => some .null
  | _, bool b => some (.bool b)
  | _, number n => n.number?.map .number
  | _, string s => s.map .string
  | depth, array xs =>
    match depth with
    | 0 => none
    | depth + 1 => (itemsToJson? depth xs).map .array
  | depth, object fs =>
    match depth with
    | 0 => none
    | depth + 1 => (fieldsToJson? depth fs).map .ofFields

def itemsToJson? (depth : Nat) : List Document → Option (List Json)
  | [] => some []
  | x :: xs => do
    let j ← toJson? depth x
    let js ← itemsToJson? depth xs
    some (j :: js)

def fieldsToJson? (depth : Nat) : List (Option String × Document) → Option (List (String × Json))
  | [] => some []
  | (k, v) :: fs => do
    let k ← k
    let j ← toJson? depth v
    let js ← fieldsToJson? depth fs
    some ((k, j) :: js)

end

end Document

/-- The value that a text consists of, with at most 127 brackets around any part. -/
def Json.parse? (s : String) : Option Json := (Document.parse? s).bind (Document.toJson? 127)

end Steward

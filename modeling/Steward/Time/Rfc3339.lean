/-
# Instants as text

An instant is written as an RFC 3339 timestamp in universal time: the year in four digits (with a
sign outside 0000 to 9999), the fraction with the fewest of 0, 3, 6 or 9 digits that is exact, a
leap second as second 60. The offset is `Z`, or `+00:00` where a sentence shows the time.

Reading is more lenient than writing: blanks may stand before a field, before and after its mark and
at the end, a field may have fewer digits, the time may follow a blank or a small `t`, and the
offset may be `z` or `UTC` or leave out its colon. Impossible days and times of day are refused.

Key definitions: `Instant.text`, `Instant.textWithOffset`, `Instant.parse?`.
-/
import Steward.Text.Blank
import Steward.Text.Digits
import Steward.Time.Calendar
import Steward.Time.Instant

namespace Steward
namespace Instant

open Text

/-! ### Writing -/

/-- The day of the instant. -/
def date (t : Instant) : Date := .ofDay (t.seconds / 86400)

/-- The year in four digits, or with a sign where four digits do not reach. -/
def yearText (y : Int) : List Char :=
  if 0 ≤ y ∧ y ≤ 9999 then padded 4 y.toNat
  else (if y < 0 then '-' else '+') :: padded 4 y.natAbs

/-- The fraction of a second with its point, in the fewest of 0, 3, 6 or 9 digits. -/
def fractionText (nanos : Nat) : List Char :=
  if nanos = 0 then []
  else if nanos % 1000000 = 0 then '.' :: padded 3 (nanos / 1000000)
  else if nanos % 1000 = 0 then '.' :: padded 6 (nanos / 1000)
  else '.' :: padded 9 nanos

/-- The timestamp up to its offset. -/
def stem (t : Instant) : List Char :=
  let d := t.date
  let s := t.timeOfDay.toNat
  let sec := s % 60 + (if t.inLeap then 1 else 0)
  yearText d.year ++ '-' :: padded 2 d.month ++ '-' :: padded 2 d.day ++
    'T' :: padded 2 (s / 3600) ++ ':' :: padded 2 (s / 60 % 60) ++ ':' :: padded 2 sec ++
    fractionText (if t.inLeap then t.nanos - second else t.nanos)

/-- The timestamp with the offset `Z`. -/
def text (t : Instant) : String := String.ofList (t.stem ++ ['Z'])

/-- The timestamp with the offset `+00:00`. -/
def textWithOffset (t : Instant) : String := String.ofList (t.stem ++ "+00:00".toList)

/-! ### Reading -/

/-- A reader takes what it knows off the front of the characters. -/
abbrev Reader (α : Type) := List Char → Option (α × List Char)

/-- A field of one to `most` digits, after blanks. -/
def field (most : Nat) : Reader Nat := fun cs => takeDigits 1 most (trimLeft cs)

/-- A mark, after blanks. -/
def mark (c : Char) : Reader Unit := fun cs =>
  match trimLeft cs with
  | x :: r => if x = c then some ((), r) else none
  | [] => none

/-- A year: four digits at most, or a sign and any number of them. -/
def year : Reader Int := fun cs =>
  match trimLeft cs with
  | '-' :: r => (takeDigits 1 r.length r).map fun (y, r) => (-(y : Int), r)
  | '+' :: r => (takeDigits 1 r.length r).map fun (y, r) => ((y : Int), r)
  | r => (takeDigits 1 4 r).map fun (y, r) => ((y : Int), r)

/-- The sign between the day and the time of day. -/
def daySeparator : Reader Unit
  | 'T' :: r => some ((), r)
  | 't' :: r => some ((), r)
  | ' ' :: r => some ((), r)
  | _ => none

/-- A fraction of a second in nanoseconds, zero if there is none; digits after the ninth are
dropped. -/
def fraction : Reader Nat
  | '.' :: r =>
    let ds := r.takeWhile isDigit
    let kept := ds.take 9
    if ds.isEmpty then none
    else some (ofDigits kept * Nat.pow 10 (9 - kept.length), r.drop ds.length)
  | r => some (0, r)

/-- Two digits, the first of them at most `top`. -/
def pair (top : Char) : Reader Nat
  | a :: b :: r =>
    if isDigit a && isDigit b && a ≤ top then some (ofDigits [a, b], r) else none
  | _ => none

/-- An offset from universal time in seconds. -/
def offset : Reader Int := fun cs =>
  match cs with
  | 'Z' :: r => some (0, r)
  | 'z' :: r => some (0, r)
  | u :: t :: c :: r =>
    if u.toLower = 'u' ∧ t.toLower = 't' ∧ c.toLower = 'c' then some (0, r)
    else if u = '+' then hoursAndMinutes (t :: c :: r)
    else if u = '-' ∨ u = '\u2212' then
      (hoursAndMinutes (t :: c :: r)).map fun (n, r) => (-n, r)
    else none
  | _ => none
where
  hoursAndMinutes (cs : List Char) : Option (Int × List Char) := do
    let (h, r) ← pair '9' cs
    let (m, r) ← pair '5' (r.dropWhile fun c => c = ':' || isBlank c)
    some ((h * 3600 + m * 60 : Nat), r)

/-- The years that an instant may lie in. -/
def yearInRange (y : Int) : Bool := -262143 ≤ y && y ≤ 262142

/-- Reads a timestamp. -/
def parseChars (cs : List Char) : Option Instant := do
  let (y, cs) ← year cs
  let (_, cs) ← mark '-' cs
  let (mo, cs) ← field 2 cs
  let (_, cs) ← mark '-' cs
  let (d, cs) ← field 2 cs
  let (_, cs) ← daySeparator cs
  let (h, cs) ← field 2 cs
  let (_, cs) ← mark ':' cs
  let (mi, cs) ← field 2 cs
  let (_, cs) ← mark ':' cs
  let (s, cs) ← field 2 cs
  let (nanos, cs) ← fraction cs
  let (off, cs) ← offset (trimLeft cs)
  let date : Date := ⟨y, mo, d⟩
  if yearInRange y && date.valid && h ≤ 23 && mi ≤ 59 && s ≤ 60 && off.natAbs < 86400 &&
      (trimLeft cs).isEmpty then
    let leap := s == 60
    let t : Instant :=
      ⟨date.toDay * 86400 + (h * 3600 + mi * 60 + (if leap then 59 else s) : Nat) - off,
        nanos + (if leap then second else 0)⟩
    if yearInRange t.date.year then some t else none
  else none

/-- The instant a timestamp names. -/
def parse? (s : String) : Option Instant := parseChars s.toList

example : (parse? "2016-12-31T23:59:60Z").map text = some "2016-12-31T23:59:60Z" := by decide
example : (parse? "2024-01-01T00:00:00.1000-05:30").map text = some "2024-01-01T05:30:00.100Z" := by
  decide
example : parse? "2023-02-29T12:00:00Z" = none ∧ parse? "2024-01-01" = none := by decide

end Instant
end Steward

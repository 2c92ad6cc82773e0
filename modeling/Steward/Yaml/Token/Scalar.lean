/-
# Reading scalars

The four ways to write a text: plain, between single or double quotes, and as a block of lines. Each
reader starts at the first character of the scalar and gives its text and the place after it.

Key definitions: `Yaml.plainScalar`, `Yaml.quotedScalar`, `Yaml.blockScalar`.
-/
import Steward.Text.Digits
import Steward.Yaml.Cursor

namespace Steward
namespace Yaml

/-! ### Plain scalars

A plain scalar goes on over line breaks as long as its lines are indented deeply enough. It ends
before a colon that ends a word, before a comment, and in brackets before a bracket or comma. -/

/-- The characters of a plain scalar up to the next blank, or up to what ends it. In brackets a
colon right before one of them is refused. -/
def plainRun (flow : Bool) : List Char → Option (List Char)
  | [] => some []
  | x :: r =>
    if isSpace x || isBreak x then some []
    else if flow && x == ':' && r.head?.any ",?[]\x7b\x7d".toList.contains then none
    else if (x == ':' && atGap r) || (flow && ",[]\x7b\x7d".toList.contains x) then some []
    else (plainRun flow r).map (x :: ·)

/-- Reads parts and the gaps between them; also tells whether a line break came last. -/
def plainParts (flow : Bool) (least : Nat) : (fuel : Nat) → (text : List (List Char)) → Gap →
    Cursor → Option (List Char × Bool × Cursor)
  | 0, text, _, c => some (joined text, false, c)
  | fuel + 1, text, g, c =>
    if c.atDocumentMark || c.peek == some '#' then some (joined text, g.broken, c)
    else do
      let run ← plainRun flow c.rest
      let text := if run.isEmpty then text else run :: g.text :: text
      let broken := run.isEmpty && g.broken
      let c := c.skip run.length
      if c.at? fun x => isSpace x || isBreak x then
        let (g, c) ← Gap.read (some least) c.size { broken } c
        if !flow && c.column < least then some (joined text, g.broken, c)
        else plainParts flow least fuel text g c
      else some (joined text, broken, c)

/-- A plain scalar whose further lines start at column `least` or later. -/
def plainScalar (flow : Bool) (least : Nat) (c : Cursor) : Option (List Char × Bool × Cursor) :=
  plainParts flow least (c.size + 1) [] {} c

/-! ### Quoted scalars -/

/-- What a letter stands for after a backslash. -/
def escapeValue? : Char → Option Char
  | '0' => some '\x00'
  | 'a' => some '\x07'
  | 'b' => some '\x08'
  | 't' => some '\t'
  | '\t' => some '\t'
  | 'n' => some '\n'
  | 'v' => some '\x0b'
  | 'f' => some '\x0c'
  | 'r' => some '\r'
  | 'e' => some '\x1b'
  | ' ' => some ' '
  | '"' => some '"'
  | '/' => some '/'
  | '\\' => some '\\'
  | 'N' => some '\u0085'
  | '_' => some '\u00a0'
  | 'L' => some '\u2028'
  | 'P' => some '\u2029'
  | _ => none

/-- The number of hexadecimal digits after a backslash and a letter. -/
def escapeLength? : Char → Option Nat
  | 'x' => some 2
  | 'u' => some 4
  | 'U' => some 8
  | _ => none

/-- The character with a number; half of a surrogate pair is none. -/
def scalarValue? (n : Nat) : Option Char :=
  if (0xD800 ≤ n ∧ n ≤ 0xDFFF) ∨ 0x10FFFF < n then none else some (Char.ofNat n)

/-- The character of an escape after its backslash, and the characters that the escape takes. -/
def escapeChar? : List Char → Option (Char × Nat)
  | x :: r =>
    match escapeLength? x with
    | some n =>
      if r.length < n then none
      else do
        let v ← Text.ofDigits? 16 (r.take n)
        let c ← scalarValue? v
        some (c, n + 2)
    | none => (escapeValue? x).map (·, 2)
  | [] => none

/-- What ends a part of a quoted scalar. -/
inductive PartEnd where
  | quote
  | gap
  | escapedBreak

/-- The characters of a quoted scalar up to its quote, a blank or an escaped line break. -/
def quotedRun (single : Bool) : (fuel : Nat) → Cursor → Option (List Char × PartEnd × Cursor)
  | 0, _ => none
  | fuel + 1, c =>
    match c.rest with
    | [] => some ([], .gap, c)
    | x :: r =>
      let push (x : Char) (n : Nat) := do
        let (cs, e, c) ← quotedRun single fuel (c.skip n)
        some (x :: cs, e, c)
      if isSpace x || isBreak x then some ([], .gap, c)
      else if single && x == '\'' then
        if r.head? = some '\'' then push '\'' 2 else some ([], .quote, c)
      else if !single && x == '"' then some ([], .quote, c)
      else if !single && x == '\\' then
        if r.head?.any isBreak then some ([], .escapedBreak, c)
        else
          match escapeChar? r with
          | some (y, n) => push y n
          | none => none
      else push x 1

/-- Reads parts and gaps up to the closing quote. -/
def quotedParts (single : Bool) : (fuel : Nat) → (text : List (List Char)) → Cursor →
    Option (List Char × Cursor)
  | 0, _, _ => none
  | fuel + 1, text, c =>
    if c.atDocumentMark || c.rest.isEmpty then none
    else do
      let (run, e, c) ← quotedRun single (c.size + 1) c
      let text := run :: text
      match e with
      | .quote => some (joined text, c.skip)
      | .gap =>
        let (g, c) ← Gap.read none c.size {} c
        quotedParts single fuel (g.text :: text) c
      | .escapedBreak =>
        let c := (c.skip.readBreak).2
        if c.peek = some (if single then '\'' else '"') then some (joined text, c.skip)
        else
          let (g, c) ← Gap.read none c.size { broken := true } c
          quotedParts single fuel (g.text :: text) c

/-- A scalar between quotes, at its opening quote. -/
def quotedScalar (single : Bool) (c : Cursor) : Option (List Char × Cursor) :=
  quotedParts single (c.size + 1) [] c.skip

/-! ### Block scalars

The lines of a block start at one column, given by a digit or by the first line that is not blank.
In a folded block a line break between two lines that start with text is a space. What the block
ends with is kept, clipped to one line break, or stripped. -/

/-- What becomes of the line breaks at the end of a block. -/
inductive Chomping where
  | strip
  | clip
  | keep
deriving DecidableEq

/-- The signs after the indicator: how to chomp, and how much deeper the block lies. -/
def blockHeader (cs : List Char) : Option (Chomping × Option Nat × Nat) :=
  let chomp? : Char → Option Chomping
    | '+' => some .keep
    | '-' => some .strip
    | _ => none
  let depth? (x : Char) : Option Nat := if Text.isDigit x then some (x.toNat - 48) else none
  let checked (h : Chomping × Option Nat × Nat) := if h.2.1 = some 0 then none else some h
  match cs with
  | x :: y :: _ =>
    match chomp? x, depth? x with
    | some k, _ => checked (k, depth? y, if (depth? y).isSome then 2 else 1)
    | none, some n => checked ((chomp? y).getD .clip, some n, if (chomp? y).isSome then 2 else 1)
    | none, none => some (.clip, none, 0)
  | [x] =>
    match chomp? x, depth? x with
    | some k, _ => some (k, none, 1)
    | none, some n => checked (.clip, some n, 1)
    | none, none => some (.clip, none, 0)
  | [] => some (.clip, none, 0)

/-- Reads blank lines: gives their breaks, the deepest column of blanks, and the place of the next
text. Where the indentation is not known yet, `indent` is zero. -/
def blockBreaks (indent : Nat) : (fuel : Nat) → (breaks : List Char) → (deepest : Nat) → Cursor →
    Option (List Char × Nat × Cursor)
  | 0, breaks, deepest, c => some (breaks, deepest, c)
  | fuel + 1, breaks, deepest, c =>
    let blanks := (c.rest.takeWhile (· == ' ')).length
    let c := c.skip (if indent = 0 then blanks else min blanks (indent - c.column))
    let deepest := max deepest c.column
    if (indent = 0 ∨ c.column < indent) ∧ c.peek = some '\t' then none
    else if c.at? isBreak then
      let (b, c) := c.readBreak
      blockBreaks indent fuel (breaks ++ b.toList) deepest c
    else some (breaks, deepest, c)

/-- What a block has so far: its text, the break after its last line, the breaks of blank lines
after it, and whether that line started with a blank. -/
structure Block where
  /-- The pieces of the text, the latest first. -/
  text : List (List Char) := []
  ending : Option Char := none
  breaks : List Char := []
  leadingBlank : Bool := false

/-- Puts another line to a block. -/
def Block.push (folded : Bool) (b : Block) (line : List Char) (ending : Option Char)
    (breaks : List Char) : Block :=
  let blank := line.head?.any isSpace
  let joint :=
    if folded && b.ending == some '\n' && !b.leadingBlank && !blank then
      (if b.breaks.isEmpty then [' '] else []) ++ b.breaks
    else b.ending.toList ++ b.breaks
  { text := line :: joint :: b.text, ending, breaks, leadingBlank := blank }

/-- Reads the lines that start at the block's column. -/
def blockLines (folded : Bool) (indent : Nat) : (fuel : Nat) → Block → Cursor →
    Option (Block × Cursor)
  | 0, b, c => some (b, c)
  | fuel + 1, b, c =>
    if c.column = indent ∧ !c.rest.isEmpty then do
      let (line, c) := c.takeWhile (!isBreak ·)
      let (ending, c) := c.readBreak
      let (breaks, _, c) ← blockBreaks indent (c.size + 1) [] 0 c
      blockLines folded indent fuel (b.push folded line ending breaks) c
    else some (b, c)

/-- A block, at its indicator, inside a collection at column `parent` (below zero outside of all).
-/
def blockScalar (folded : Bool) (parent : Int) (c : Cursor) : Option (List Char × Cursor) := do
  let c := c.skip
  let (chomping, depth, n) ← blockHeader c.rest
  let c ← (c.skip n).endOfLine
  let c := c.readBreak.2
  let given : Nat := match depth with
    | some n => (max parent 0).toNat + n
    | none => 0
  let (breaks, deepest, c) ← blockBreaks given (c.size + 1) [] 0 c
  let indent := if given = 0 then max (max deepest (parent + 1).toNat) 1 else given
  let (b, c) ← blockLines folded indent (c.size + 1) { breaks } c
  let tail := match chomping with
    | .strip => []
    | .clip => b.ending.toList
    | .keep => b.ending.toList ++ b.breaks
  some (joined (tail :: b.text), c)

end Yaml
end Steward

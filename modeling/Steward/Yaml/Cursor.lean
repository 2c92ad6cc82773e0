/-
# Places in a YAML document

A cursor is the rest of the text with the line, the column and the number of characters before it.

Key definitions: `Yaml.Cursor`, `Yaml.Cursor.skip`, `Yaml.Cursor.readBreak`, `Yaml.Gap`.
-/
import Steward.Yaml.Token

namespace Steward
namespace Yaml

/-- A place in a text. No reader takes more steps than the text has characters. -/
structure Cursor where
  rest : List Char
  /-- The number of characters of the whole text. -/
  size : Nat
  line : Nat := 0
  column : Nat := 0
  index : Nat := 0

namespace Cursor

/-- The start of a text. -/
def start (cs : List Char) : Cursor := { rest := cs, size := cs.length }

/-- The next character. -/
def peek (c : Cursor) : Option Char := c.rest.head?

def at? (c : Cursor) (p : Char → Bool) : Bool := c.peek.any p

/-- The place some characters further on the line. -/
def skip (c : Cursor) (n : Nat := 1) : Cursor :=
  { c with rest := c.rest.drop n, column := c.column + n, index := c.index + n }

/-- The characters of a kind that come next on the line, and the place after them. -/
def takeWhile (c : Cursor) (p : Char → Bool) : List Char × Cursor :=
  let cs := c.rest.takeWhile p
  (cs, c.skip cs.length)

def skipWhile (c : Cursor) (p : Char → Bool) : Cursor := (c.takeWhile p).2

/-- A line break as one character, and the place after it. -/
def readBreak (c : Cursor) : Option Char × Cursor :=
  let next (n : Nat) : Cursor :=
    { c with rest := c.rest.drop n, line := c.line + 1, column := 0, index := c.index + n }
  match c.rest with
  | '\r' :: '\n' :: _ => (some '\n', next 2)
  | '\u2028' :: _ => (some '\u2028', next 1)
  | '\u2029' :: _ => (some '\u2029', next 1)
  | x :: _ => if isBreak x then (some '\n', next 1) else (none, c)
  | [] => (none, c)

/-- Whether three dashes or three dots mark the edge of a document here. -/
def atDocumentMark (c : Cursor) : Bool :=
  c.column == 0 &&
    match c.rest with
    | '-' :: '-' :: '-' :: r => atGap r
    | '.' :: '.' :: '.' :: r => atGap r
    | _ => false

/-- The place of the next line break, if only blanks and a comment stand before it. -/
def endOfLine (c : Cursor) : Option Cursor :=
  let c := c.skipWhile isSpace
  let c := if c.peek = some '#' then c.skipWhile (!isBreak ·) else c
  if c.rest.isEmpty || c.at? isBreak then some c else none

end Cursor

/-- The text of pieces of which the latest comes first. -/
def joined (pieces : List (List Char)) : List Char := pieces.reverse.flatten

/-! ### Gaps

Between two parts of a scalar there are blanks, or line breaks with blanks around them. Blanks on
one line stand for themselves; a single line break is a space, and of several the first is dropped.
A break that was escaped, or one that is not an ordinary line feed, is not folded. -/

/-- What stands between two parts of a scalar. -/
structure Gap where
  blanks : List Char := []
  broken : Bool := false
  first : Option Char := none
  more : List Char := []

namespace Gap

/-- What a gap contributes to the text. -/
def text (g : Gap) : List Char :=
  if g.broken then
    match g.first with
    | some '\n' => if g.more.isEmpty then [' '] else g.more
    | some c => c :: g.more
    | none => g.more
  else g.blanks

/-- Reads on in a gap. Where a least column is given, no tab may stand before it on a new line. -/
def read (least : Option Nat) : (fuel : Nat) → Gap → Cursor → Option (Gap × Cursor)
  | 0, g, c => some (g, c)
  | fuel + 1, g, c =>
    match c.peek with
    | none => some (g, c)
    | some x =>
      if isSpace x then
        if g.broken then
          if x == '\t' && least.any (c.column < ·) then none else read least fuel g c.skip
        else read least fuel { g with blanks := g.blanks ++ [x] } c.skip
      else if isBreak x then
        let (b, c) := c.readBreak
        if g.broken then read least fuel { g with more := g.more ++ b.toList } c
        else read least fuel { broken := true, first := b } c
      else some (g, c)

end Gap
end Yaml
end Steward

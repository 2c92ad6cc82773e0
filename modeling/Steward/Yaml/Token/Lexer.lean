/-
# Cutting a YAML document into tokens

In block style the indentation speaks: a deeper column opens a collection and a shallower one closes
it. That something was the key of a mapping shows only at the colon behind it, so the place of what
may turn out to be a key is kept, and the token that opens the key is put there afterwards. Such a
key must be followed by its colon on the same line and within 1024 characters.

Key definitions: `Yaml.Lexer`, `Yaml.Lexer.step`, `Yaml.tokens?`.
-/
import Steward.Yaml.Token.Scalar

namespace Steward
namespace Yaml

/-- Where a key may have started: the number of tokens before it, and its place. One that stands
where a block mapping expects its next key has to turn out to be one. -/
structure PossibleKey where
  needed : Bool
  position : Nat
  line : Nat
  column : Nat
  index : Nat

structure Lexer where
  cursor : Cursor
  /-- The tokens so far, the latest first. -/
  tokens : List Token := []
  /-- Their number. -/
  count : Nat := 0
  /-- The column of the innermost block collection, below zero outside of all. -/
  indent : Int := -1
  /-- The columns of the collections around it. -/
  outer : List Int := []
  /-- The brackets that are open. -/
  flow : Nat := 0
  /-- Whether a key may start here. -/
  keyAllowed : Bool := true
  /-- The possible key of the innermost bracket or block, and those of the brackets around it. -/
  key : Option PossibleKey := none
  outerKeys : List (Option PossibleKey) := []
  finished : Bool := false

namespace Lexer

def emit (l : Lexer) (t : Token) : Lexer :=
  { l with tokens := t :: l.tokens, count := l.count + 1 }

/-- Puts a token behind the first `position` ones. -/
def insert (l : Lexer) (position : Nat) (t : Token) : Lexer :=
  let later := l.count - position
  { l with tokens := l.tokens.take later ++ t :: l.tokens.drop later, count := l.count + 1 }

/-- Moves on some characters of the line. -/
def skip (l : Lexer) (n : Nat := 1) : Lexer := { l with cursor := l.cursor.skip n }

/-! ### Keys -/

/-- Gives up a possible key; one that is needed cannot be given up. -/
def dropKey (l : Lexer) : Option Lexer :=
  if l.key.any (·.needed) then none else some { l with key := none }

/-- Whether a colon can no longer make a key of what started there. -/
def isStale (c : Cursor) (k : PossibleKey) : Bool := k.line < c.line || k.index + 1024 < c.index

/-- Gives up the keys that came too long ago. -/
def dropStaleKeys (l : Lexer) : Option Lexer :=
  let stale (k : Option PossibleKey) : Bool := k.any (isStale l.cursor)
  let lost (k : Option PossibleKey) : Bool := stale k && k.any (·.needed)
  if lost l.key || l.outerKeys.any lost then none
  else
    let kept (k : Option PossibleKey) : Option PossibleKey := if stale k then none else k
    some { l with key := kept l.key, outerKeys := l.outerKeys.map kept }

/-- Remembers that a key may start here. -/
def saveKey (l : Lexer) : Option Lexer :=
  if l.keyAllowed then do
    let needed := l.flow == 0 && l.indent == l.cursor.column
    let l ← l.dropKey
    let c := l.cursor
    some { l with key := some ⟨needed, l.count, c.line, c.column, c.index⟩ }
  else some l

/-! ### Indentation -/

/-- Opens a block collection at a column, unless one is open there; its token goes behind the first
`position` ones. -/
def openBlock (l : Lexer) (column position : Nat) (t : Token) : Lexer :=
  if l.flow = 0 ∧ l.indent < column then
    { l with indent := column, outer := l.indent :: l.outer }.insert position t
  else l

/-- Closes the block collections that lie deeper than a column. -/
def closeBlocks (column : Int) : (outer : List Int) → Lexer → Lexer
  | outer, l =>
    if l.flow = 0 ∧ column < l.indent then
      match outer with
      | i :: outer => closeBlocks column outer ({ l with indent := i, outer }.emit .blockEnd)
      | [] => { l with indent := -1 }.emit .blockEnd
    else l

def unroll (l : Lexer) (column : Int) : Lexer := closeBlocks column l.outer l

/-! ### Blanks between tokens -/

/-- Moves to the next token, over blanks, comments and line breaks. A tab may not indent. -/
def toToken : (fuel : Nat) → Lexer → Lexer
  | 0, l => l
  | fuel + 1, l =>
    let c := if l.cursor.index = 0 ∧ l.cursor.peek = some '\ufeff' then l.cursor.skip else l.cursor
    let c := c.skipWhile fun x => x == ' ' || (x == '\t' && (0 < l.flow || !l.keyAllowed))
    let c := if c.peek = some '#' then c.skipWhile (!isBreak ·) else c
    if c.at? isBreak then
      toToken fuel { l with cursor := c.readBreak.2, keyAllowed := l.keyAllowed || l.flow == 0 }
    else { l with cursor := c }

/-! ### Directives, anchors and tags -/

/-- A tag's handle: a word between exclamation marks, or the first mark alone. -/
def tagHandle (c : Cursor) : Option (List Char × Cursor) :=
  if c.peek = some '!' then
    let (word, c) := c.skip.takeWhile isWord
    if c.peek = some '!' then some ('!' :: word ++ ['!'], c.skip) else some ('!' :: word, c)
  else none

/-- The bytes of a character that is written as escapes: the first tells how many. -/
def escapedBytes : (left : Nat) → Cursor → Option (List UInt8 × Cursor)
  | 0, c => some ([], c)
  | left + 1, c =>
    match c.rest with
    | '%' :: a :: b :: _ => do
      let v ← Text.ofDigits? 16 [a, b]
      if v / 64 ≠ 2 then none
      else
        let (bs, c) ← escapedBytes left (c.skip 3)
        some (UInt8.ofNat v :: bs, c)
    | _ => none

/-- A character that is written as escapes, in bytes. -/
def uriEscape (c : Cursor) : Option (List UInt8 × Cursor) :=
  match c.rest with
  | '%' :: a :: b :: _ => do
    let v ← Text.ofDigits? 16 [a, b]
    let left ←
      if v < 0x80 then some 0
      else if v / 32 = 6 then some 1
      else if v / 16 = 14 then some 2
      else if v / 8 = 30 then some 3
      else none
    let (bs, c) ← escapedBytes left (c.skip 3)
    some (UInt8.ofNat v :: bs, c)
  | _ => none

/-- The characters of a tag after its handle. -/
def isUriChar (verbatim : Bool) (x : Char) : Bool :=
  isWord x || ";/?:@&=+$.%!~*'()".toList.contains x || (verbatim && ",[]".toList.contains x)

/-- The bytes of a tag after its handle. -/
def uriBytes (verbatim : Bool) : (fuel : Nat) → Cursor → Option (List UInt8 × Cursor)
  | 0, c => some ([], c)
  | fuel + 1, c =>
    match c.peek with
    | some x =>
      if isUriChar verbatim x then do
        let (bs, c) ← if x == '%' then uriEscape c else some (x.toString.toUTF8.toList, c.skip)
        let (more, c) ← uriBytes verbatim fuel c
        some (bs ++ more, c)
      else some ([], c)
    | none => some ([], c)

/-- The text of a tag after its handle, which may not be empty unless something came before it.
Bytes that are no text make a tag that says nothing. -/
def uri (verbatim : Bool) (before : List Char) (c : Cursor) : Option (String × Cursor) := do
  let (bs, c) ← uriBytes verbatim (c.size + 1) c
  if before.isEmpty ∧ bs.isEmpty then none
  else
    let bytes := (String.ofList (before.drop 1)).toUTF8.toList ++ bs
    some ((String.fromUTF8? ⟨bytes.toArray⟩).getD "", c)

/-- A tag, at its exclamation mark: handle and suffix. A lone mark has no handle. -/
def tag (flow : Bool) (c : Cursor) : Option (Token × Cursor) := do
  let (t, c) ←
    if c.rest[1]? = some '<' then do
      let (suffix, c) ← uri true [] (c.skip 2)
      if c.peek = some '>' then some (Token.tag "" suffix, c.skip) else none
    else do
      let (handle, c) ← tagHandle c
      if handle.length > 1 ∧ handle.getLast? = some '!' then
        let (suffix, c) ← uri false [] c
        some (Token.tag (String.ofList handle) suffix, c)
      else
        let (suffix, c) ← uri false handle c
        some (if suffix = "" then Token.tag "" "!" else Token.tag "!" suffix, c)
  if atGap c.rest ∨ (flow ∧ c.peek = some ',') then some (t, c) else none

/-- The name of an anchor or alias, after its indicator. -/
def anchorName (c : Cursor) : Option (String × Cursor) :=
  let (name, c) := c.takeWhile isWord
  if name.isEmpty then none
  else if atGap c.rest || c.at? ("?:,]\x7d%@".toList ++ [Char.ofNat 0x60]).contains then
    some (String.ofList name, c)
  else none

/-- A number of at most nine digits. -/
def versionNumber (c : Cursor) : Option (Nat × Cursor) :=
  let (ds, c) := c.takeWhile Text.isDigit
  if ds.isEmpty ∨ ds.length > 9 then none else some (Text.ofDigits ds, c)

/-- A directive after its percent sign, with the rest of its line. -/
def directive (c : Cursor) : Option (Token × Cursor) := do
  let (name, c) := c.takeWhile isWord
  if !atGap c.rest then none
  let (t, c) ←
    if name = "YAML".toList then do
      let (major, c) ← versionNumber (c.skipWhile isSpace)
      if c.peek = some '.' then
        let (minor, c) ← versionNumber c.skip
        some (Token.versionDirective major minor, c)
      else none
    else if name = "TAG".toList then do
      let (handle, c) ← tagHandle (c.skipWhile isSpace)
      if handle.length > 1 ∧ handle.getLast? ≠ some '!' then none
      else if !c.at? isSpace then none
      else
        let (stem, c) ← uri true [] (c.skipWhile isSpace)
        if atGap c.rest then some (Token.tagDirective (String.ofList handle) stem, c) else none
    else none
  let c ← c.endOfLine
  some (t, c.readBreak.2)

/-! ### Tokens -/

/-- Ends all blocks before a mark that stands outside of them. -/
def leaveAll (l : Lexer) : Option Lexer := do
  let l ← (l.unroll (-1)).dropKey
  some { l with keyAllowed := false }

/-- An opening bracket. -/
def openFlow (l : Lexer) (t : Token) : Option Lexer := do
  let l ← l.saveKey
  some ({ l with
    flow := l.flow + 1, key := none, outerKeys := l.key :: l.outerKeys
    keyAllowed := true }.emit t).skip

/-- A closing bracket. -/
def closeFlow (l : Lexer) (t : Token) : Option Lexer := do
  let l ← l.dropKey
  let l :=
    match l.outerKeys with
    | k :: ks => { l with flow := l.flow - 1, key := k, outerKeys := ks }
    | [] => l
  some ({ l with keyAllowed := false }.emit t).skip

/-- A comma. -/
def flowEntry (l : Lexer) : Option Lexer := do
  let l ← l.dropKey
  some ({ l with keyAllowed := true }.emit .flowEntry).skip

/-- A dash. -/
def blockEntry (l : Lexer) : Option Lexer := do
  if l.flow = 0 ∧ !l.keyAllowed then none
  else
    let l := l.openBlock l.cursor.column l.count .blockSequenceStart
    let l ← l.dropKey
    some ({ l with keyAllowed := true }.emit .blockEntry).skip

/-- A question mark. -/
def keyMark (l : Lexer) : Option Lexer := do
  if l.flow = 0 ∧ !l.keyAllowed then none
  else
    let l := l.openBlock l.cursor.column l.count .blockMappingStart
    let l ← l.dropKey
    some ({ l with keyAllowed := l.flow == 0 }.emit .key).skip

/-- A colon: makes a key of what may be one. -/
def valueMark (l : Lexer) : Option Lexer :=
  match l.key with
  | some k =>
    let l := (l.insert k.position .key).openBlock k.column k.position .blockMappingStart
    some ({ l with key := none, keyAllowed := false }.emit .value).skip
  | none =>
    if l.flow = 0 ∧ !l.keyAllowed then none
    else
      let l := l.openBlock l.cursor.column l.count .blockMappingStart
      some ({ l with keyAllowed := l.flow == 0 }.emit .value).skip

/-- A token that may start a key: the reader gives it and the place after it. -/
def keyed (l : Lexer) (read : Cursor → Option (Token × Cursor)) : Option Lexer := do
  let l ← l.saveKey
  let (t, c) ← read l.cursor
  some ({ l with cursor := c, keyAllowed := false }.emit t)

/-- A plain scalar; a key may start after it if it ended with a line break. -/
def plain (l : Lexer) : Option Lexer := do
  let l ← l.saveKey
  let (text, broken, c) ← plainScalar (0 < l.flow) (l.indent + 1).toNat l.cursor
  some ({ l with cursor := c, keyAllowed := broken }.emit (.scalar .plain (String.ofList text)))

/-- A scalar in lines of its own. -/
def block (l : Lexer) (folded : Bool) : Option Lexer := do
  let l ← l.dropKey
  let (text, c) ← blockScalar folded l.indent l.cursor
  let style := if folded then Style.other else .literal
  some ({ l with cursor := c, keyAllowed := true }.emit (.scalar style (String.ofList text)))

/-- A scalar between quotes. -/
def quoted (l : Lexer) (single : Bool) : Option Lexer :=
  l.keyed fun c => (quotedScalar single c).map fun (text, c) =>
    (.scalar .other (String.ofList text), c)

/-- The end of the text. -/
def finish (l : Lexer) : Option Lexer := do
  let l ← l.leaveAll
  some { l.emit .streamEnd with finished := true }

/-- Whether a plain scalar may start with these characters. -/
def startsPlain (flow : Bool) : List Char → Bool
  | [] => false
  | x :: r =>
    if x == '-' then !r.head?.any isSpace
    else if x == '?' || x == ':' then !flow && !atGap r
    else
      !(isSpace x || isBreak x ||
        (",[]\x7b\x7d#&*!|>'\"%@".toList ++ [Char.ofNat 0x60]).contains x)

/-- Reads the next token. -/
def step (l : Lexer) : Option Lexer := do
  let l := toToken (l.cursor.size + 1) l
  let l ← l.dropStaleKeys
  let l := l.unroll l.cursor.column
  let c := l.cursor
  let inFlow : Bool := 0 < l.flow
  match c.rest with
  | [] => l.finish
  | x :: r =>
    if c.column = 0 ∧ x = '%' then
      let l ← l.leaveAll
      let (t, c) ← directive c.skip
      some ({ l with cursor := c }.emit t)
    else if c.atDocumentMark then
      let l ← l.leaveAll
      some ((l.emit (if x = '-' then .documentStart else .documentEnd)).skip 3)
    else if x = '[' then l.openFlow .flowSequenceStart
    else if x = '\x7b' then l.openFlow .flowMappingStart
    else if x = ']' then l.closeFlow .flowSequenceEnd
    else if x = '\x7d' then l.closeFlow .flowMappingEnd
    else if x = ',' then l.flowEntry
    else if x = '-' ∧ atGap r then l.blockEntry
    else if x = '?' ∧ (inFlow ∨ atGap r) then l.keyMark
    else if x = ':' ∧ (inFlow ∨ atGap r) then l.valueMark
    else if x = '*' then
      l.keyed fun c => (anchorName c.skip).map fun (n, c) => (.alias n, c)
    else if x = '&' then
      l.keyed fun c => (anchorName c.skip).map fun (n, c) => (.anchor n, c)
    else if x = '!' then l.keyed (tag inFlow)
    else if x = '|' ∧ !inFlow then l.block false
    else if x = '>' ∧ !inFlow then l.block true
    else if x = '\'' then l.quoted true
    else if x = '"' then l.quoted false
    else if startsPlain inFlow (x :: r) then l.plain
    else none

/-- Reads tokens until the text ends. -/
def run : (fuel : Nat) → Lexer → Option Lexer
  | 0, _ => none
  | fuel + 1, l => if l.finished then some l else l.step.bind (run fuel)

end Lexer

/-- The tokens of a text. -/
def tokens? (text : String) : Option (List Token) :=
  let cs := text.toList
  if cs.all isPrintable then
    (Lexer.run (cs.length + 2) { cursor := .start cs }).map fun l => l.tokens.reverse
  else none

end Yaml
end Steward

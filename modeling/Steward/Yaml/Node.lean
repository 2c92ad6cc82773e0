/-
# YAML documents as trees

A document is a scalar, a sequence, a mapping, or an alias of a node that was given an anchor
before. Nodes that are left out are empty plain scalars. A text holds one document.

An anchor is known by a number, the count of names used for anchors before it, so a name that is
used again leaves a number to be shared. An alias stands for the latest node with its name's number,
even if that one starts after the alias.

Key definitions: `Yaml.Node`, `Yaml.Node.ofTokens?`, `Yaml.Node.anchored`, `Yaml.Node.size`.
-/
import Steward.Yaml.Token

namespace Steward
namespace Yaml

/-- What may stand before a node. -/
structure Marks where
  anchor : Option Nat := none
  tag : Option String := none
deriving DecidableEq

inductive Node where
  | scalar (marks : Marks) (style : Style) (text : String)
  | sequence (marks : Marks) (items : List Node)
  | mapping (marks : Marks) (entries : List (Node × Node))
  | alias (anchor : Nat)

namespace Node

/-- The node in a place where none is written. -/
def empty : Node := scalar {} .plain ""

instance : Inhabited Node := ⟨empty⟩

mutual

/-- The number of events in the tree: one for a leaf, two around a collection. -/
def size : Node → Nat
  | scalar .. => 1
  | .alias _ => 1
  | sequence _ items => 2 + sizeItems items
  | mapping _ entries => 2 + sizeEntries entries

def sizeItems : List Node → Nat
  | [] => 0
  | n :: ns => n.size + sizeItems ns

def sizeEntries : List (Node × Node) → Nat
  | [] => 0
  | (k, v) :: es => k.size + v.size + sizeEntries es

end

/-- A node under its anchor, if it has one. -/
def under (marks : Marks) (n : Node) : List (Nat × Node) := (marks.anchor.map (·, n)).toList

mutual

/-- The anchored nodes in the order in which they start. -/
def anchored : Node → List (Nat × Node)
  | scalar marks style text => under marks (scalar marks style text)
  | .alias _ => []
  | sequence marks items => under marks (sequence marks items) ++ anchoredItems items
  | mapping marks entries => under marks (mapping marks entries) ++ anchoredEntries entries

def anchoredItems : List Node → List (Nat × Node)
  | [] => []
  | n :: ns => n.anchored ++ anchoredItems ns

def anchoredEntries : List (Node × Node) → List (Nat × Node)
  | [] => []
  | (k, v) :: es => k.anchored ++ v.anchored ++ anchoredEntries es

end

/-! ### Reading tokens -/

/-- The tokens to read, what the handles of tags stand for, and the anchors' numbers. -/
structure Source where
  tokens : List Token
  handles : List (String × String)
  anchors : List (String × Nat) := []

abbrev Reader := StateT Source Option

/-- The next token. -/
def peek : Reader Token := do
  match (← get).tokens with
  | t :: _ => pure t
  | [] => failure

/-- Passes over the next token. -/
def advance : Reader Unit := modify fun s => { s with tokens := s.tokens.drop 1 }

/-- Passes over the next token if it is the given one, and tells whether it was. -/
def accept (t : Token) : Reader Bool := do
  if (← peek) = t then
    advance
    pure true
  else pure false

/-- An empty node before some tokens, and what is read before any other. -/
def orEmpty (ends : List Token) (read : Reader Node) : Reader Node := do
  if ends.contains (← peek) then pure empty else read

/-- The comma in front of an item, unless it is the first. -/
def comma (first : Bool) : Reader Unit := do
  if !first then
    if !(← accept .flowEntry) then failure

/-- The number of a new anchor. -/
def number (name : String) : Reader Nat := do
  let s ← get
  let n := s.anchors.length
  set { s with anchors := (name, n) :: s.anchors.filter (·.1 != name) }
  pure n

/-- The whole text of a tag; its handle must stand for something. -/
def tagText (handle suffix : String) : Reader String := do
  if handle = "" then pure suffix
  else
    match (← get).handles.lookup handle with
    | some stem => pure (stem ++ suffix)
    | none => failure

/-- An anchor and a tag in either order, each at most once. -/
def marks : Reader Marks := do
  match ← peek with
  | .anchor name =>
    advance
    let anchor ← number name
    match ← peek with
    | .tag handle suffix =>
      advance
      pure { anchor, tag := ← tagText handle suffix }
    | _ => pure { anchor }
  | .tag handle suffix =>
    advance
    let tag ← tagText handle suffix
    match ← peek with
    | .anchor name =>
      advance
      pure { anchor := ← number name, tag }
    | _ => pure { tag }
  | _ => pure {}

/-- The empty node that marks alone stand for. -/
def bare (m : Marks) : Reader Node :=
  if m.anchor.isSome || m.tag.isSome then pure (scalar m .plain "") else failure

/-- A scalar with its marks; the tag of a lone exclamation mark says nothing about it. -/
def marked (m : Marks) (style : Style) (text : String) : Node :=
  scalar (if m.tag = some "!" then { m with tag := none } else m) style text

mutual

/-- A node. In a block there may be block collections; at a key or value also a sequence whose
dashes stand in the column of the keys. -/
def read : (fuel : Nat) → (block dashes : Bool) → Reader Node
  | 0, _, _ => failure
  | fuel + 1, block, dashes => do
    let m ← marks
    match ← peek with
    | .alias name =>
      if m = {} then
        advance
        match (← get).anchors.lookup name with
        | some n => pure (.alias n)
        | none => failure
      else bare m
    | .scalar style text =>
      advance
      pure (marked m style text)
    | .flowSequenceStart =>
      advance
      sequence m <$> flowItems fuel true
    | .flowMappingStart =>
      advance
      mapping m <$> flowEntries fuel true
    | .blockEntry => if dashes then sequence m <$> dashItems fuel else bare m
    | .blockSequenceStart =>
      if block then
        advance
        sequence m <$> blockItems fuel
      else bare m
    | .blockMappingStart =>
      if block then
        advance
        mapping m <$> blockEntries fuel
      else bare m
    | _ => bare m

/-- The items after dashes, up to the end of the block. -/
def blockItems : Nat → Reader (List Node)
  | 0 => failure
  | fuel + 1 => do
    if ← accept .blockEntry then
      let n ← orEmpty [.blockEntry, .blockEnd] (read fuel true false)
      return n :: (← blockItems fuel)
    else if ← accept .blockEnd then pure []
    else failure

/-- The items after dashes in the column of the keys around them. -/
def dashItems : Nat → Reader (List Node)
  | 0 => failure
  | fuel + 1 => do
    if ← accept .blockEntry then
      let n ← orEmpty [.blockEntry, .key, .value, .blockEnd] (read fuel true false)
      return n :: (← dashItems fuel)
    else pure []

/-- The keys with their values, up to the end of the block. -/
def blockEntries : Nat → Reader (List (Node × Node))
  | 0 => failure
  | fuel + 1 => do
    if ← accept .key then
      let k ← orEmpty [.key, .value, .blockEnd] (read fuel true true)
      let v ←
        if ← accept .value then orEmpty [.key, .value, .blockEnd] (read fuel true true)
        else pure empty
      return (k, v) :: (← blockEntries fuel)
    else if ← accept .blockEnd then pure []
    else failure

/-- The items up to the closing bracket; a comma may come last. -/
def flowItems : Nat → (first : Bool) → Reader (List Node)
  | 0, _ => failure
  | fuel + 1, first => do
    if ← accept .flowSequenceEnd then pure []
    else
      comma first
      if ← accept .flowSequenceEnd then pure []
      else
        let n ← if ← accept .key then pairItem fuel else read fuel false false
        return n :: (← flowItems fuel false)

/-- An item that is a mapping of one key. A key that is left out takes the token after it along. -/
def pairItem : Nat → Reader Node
  | 0 => failure
  | fuel + 1 => do
    let k ←
      if [.value, .flowEntry, .flowSequenceEnd].contains (← peek) then
        advance
        pure empty
      else read fuel false false
    let v ←
      if ← accept .value then orEmpty [.flowEntry, .flowSequenceEnd] (read fuel false false)
      else pure empty
    pure (mapping {} [(k, v)])

/-- The entries up to the closing brace; a comma may come last. What is no key has no value. -/
def flowEntries : Nat → (first : Bool) → Reader (List (Node × Node))
  | 0, _ => failure
  | fuel + 1, first => do
    if ← accept .flowMappingEnd then pure []
    else
      comma first
      if ← accept .flowMappingEnd then pure []
      else if ← accept .key then
        let k ← orEmpty [.value, .flowEntry, .flowMappingEnd] (read fuel false false)
        let v ←
          if ← accept .value then orEmpty [.flowEntry, .flowMappingEnd] (read fuel false false)
          else pure empty
        return (k, v) :: (← flowEntries fuel false)
      else
        let k ← read fuel false false
        return (k, empty) :: (← flowEntries fuel false)

end

/-! ### Documents -/

/-- What the handles stand for that no directive declares. -/
def standardHandles : List (String × String) := [("!", "!"), ("!!", "tag:yaml.org,2002:")]

/-- The handles that the directives in front declare, and the tokens after them: at most one
version, 1.1 or 1.2, and each handle at most once. -/
def directives (versioned : Bool) (handles : List (String × String)) :
    List Token → Option (List (String × String) × List Token)
  | .versionDirective major minor :: ts =>
    if versioned ∨ major ≠ 1 ∨ (minor ≠ 1 ∧ minor ≠ 2) then none else directives true handles ts
  | .tagDirective handle stem :: ts =>
    if (handles.map Prod.fst).contains handle then none
    else directives versioned ((handle, stem) :: handles) ts
  | ts => some (handles, ts)

/-- The tokens that end a document, or stand before the next one. -/
def isOutside : Token → Bool
  | .versionDirective .. | .tagDirective .. | .documentStart | .documentEnd | .streamEnd => true
  | _ => false

/-- The document in a list of tokens, if there is one and nothing but its end after it. -/
def ofTokens? (ts : List Token) : Option Node := do
  if ts = [.streamEnd] then some empty
  else
    let (handles, body) ← directives false [] ts
    let explicit := body.head? == some .documentStart
    if body.length ≠ ts.length ∧ !explicit then none
    else
      let body := if explicit then body.drop 1 else body
      let source : Source := { tokens := body, handles := handles ++ standardHandles }
      let (n, s) ←
        if explicit ∧ body.head?.any isOutside then some (empty, source)
        else read (2 * body.length + 2) true false source
      if s.tokens.dropWhile (· == .documentEnd) = [.streamEnd] then some n else none

end Node
end Yaml
end Steward

/-
# Records in YAML

A record is a mapping. A list, a map or a record that is left out is empty. A text is whatever a
scalar spells, quoted or not, while numbers and truth values are plain, or literal blocks tagged as
such. A word of a finite kind may also be a tag of its own.

An alias reads as the node that it stands for. So that aliases of aliases come to an end, at most a
hundred are followed for each event of the document, and collections nest at most 128 deep.

Key definitions: `Yaml.format`, `Yaml.read?`.
-/
import Steward.Format
import Steward.Yaml.Node
import Steward.Yaml.Plain
import Steward.Yaml.Token.Lexer

namespace Steward
namespace Yaml

/-- A node, how deep it may still nest, and the anchored nodes of its document, the latest first. -/
structure Part where
  node : Node
  depth : Nat
  anchored : List (Nat × Node)

/-- Readings that know how many aliases they may still follow. -/
abbrev Following := StateT Nat Option

/-- The name of one of YAML's own types as a tag. -/
def standardTag (type : String) : Option String := some ("tag:yaml.org,2002:" ++ type)

/-- The name in a tag of one's own. -/
def ownTag (m : Marks) : Option String :=
  match m.tag.map String.toList with
  | some ['!'] => some "!"
  | some ('!' :: r) => some (String.ofList r)
  | _ => none

/-- Whether the node is a plain scalar without text. -/
def isLeftOut : Node → Bool
  | .scalar _ .plain "" => true
  | _ => false

namespace Part

/-- The node that an alias stands for, or the node itself. -/
def follow (p : Part) : Following Node := do
  match p.node with
  | .alias n =>
    match ← get, p.anchored.lookup n with
    | left + 1, some node =>
      set left
      pure node
    | _, _ => failure
  | node => pure node

/-- A node inside of a collection, if that may be so deep. -/
def inner (p : Part) (n : Node) : Following Part :=
  match p.depth with
  | 0 => failure
  | depth + 1 => pure { p with node := n, depth }

def items (p : Part) : Following (List Part) := do
  match ← p.follow with
  | .sequence _ ns =>
    if p.depth = 0 then failure else ns.mapM p.inner
  | n => if isLeftOut n then pure [] else failure

def text (p : Part) : Following String := do
  match ← p.follow with
  | .scalar _ _ s => pure s
  | _ => failure

def entries (p : Part) : Following (List (String × Part)) := do
  match ← p.follow with
  | .mapping _ es =>
    if p.depth = 0 then failure
    else es.mapM fun (k, v) => do pure (← (← p.inner k).text, ← p.inner v)
  | n => if isLeftOut n then pure [] else failure

/-- The named ones of the entries; none of them may be there twice. -/
def fields (names : List String) (p : Part) : Following (List (String × Part)) := do
  let es := (← p.entries).filter fun e => names.contains e.1
  if (es.map Prod.fst).Nodup then pure es else failure

/-- The text of a scalar that is plain, or a literal block with the tag of a type. -/
def unquoted (type : String) (p : Part) : Following String := do
  match ← p.follow with
  | .scalar m style s =>
    if style = .plain ∨ (style = .literal ∧ m.tag = standardTag type) then pure s else failure
  | _ => failure

/-- Where no number may be negative, a minus is refused even in front of zero. -/
def integer (low high : Int) (p : Part) : Following Int := do
  let cs := (← p.unquoted "int").toList
  let n : Option Int := if 0 ≤ low then (natural? cs).map Int.ofNat else integer? cs
  match n with
  | some n => if low ≤ n ∧ n ≤ high then pure n else failure
  | none => failure

def flag (p : Part) : Following Bool := do
  match flag? (← p.unquoted "bool") with
  | some b => pure b
  | none => failure

def optional (p : Part) : Following (Option Part) := do
  let n ← p.follow
  match n with
  | .scalar m .plain s =>
    if m.tag.isNone then
      if s = "" ∨ isNull s then pure none else pure (some { p with node := n })
    else if m.tag = standardTag "null" then
      if isNull s then pure none else failure
    else pure (some { p with node := n })
  | n => pure (some { p with node := n })

/-- The text of a scalar, or a tag of one's own on nothing. -/
def word (p : Part) : Following String := do
  match ← p.follow with
  | .scalar m style s =>
    match ownTag m with
    | some w => if style = .plain ∧ (s = "" ∨ isNull s) then pure w else failure
    | none => pure s
  | _ => failure

end Part

/-! ### Values -/

/-- A real number as a value; what JSON cannot say is `null`. -/
def Real.toJson : Real → Json
  | .finite x => .number (.binary x)
  | _ => .null

/-- An integer as a value, if it fits 64 bits. -/
def intJson (n : Int) : Option Json :=
  if Int64.minValue.toInt ≤ n ∧ n < UInt64.size then some (.int n) else none

/-- The value of a scalar. A tag of one's own has none. -/
def scalarJson (m : Marks) (style : Style) (s : String) : Option Json :=
  if (ownTag m).isSome then none
  else if m.tag = standardTag "bool" then (flag? s).map .bool
  else if m.tag = standardTag "int" then (integer? s.toList).bind intJson
  else if m.tag = standardTag "float" then (real? s.toList).map Real.toJson
  else if m.tag = standardTag "null" then if isNull s then some .null else none
  else if m.tag.isSome ∨ style ≠ .plain then some (.string s)
  else
    match meaning s with
    | .null => some .null
    | .flag b => some (.bool b)
    | .integer n => intJson n
    | .real x => some x.toJson
    | .text => some (.string s)

/-- The value of a node that may nest as deep as told. -/
def nodeJson (anchored : List (Nat × Node)) : (depth : Nat) → Node → Following Json
  | depth, n => do
    match ← Part.follow ⟨n, depth, anchored⟩, depth with
    | .scalar m style s, _ =>
      match scalarJson m style s with
      | some j => pure j
      | none => failure
    | .sequence m ns, depth + 1 =>
      if (ownTag m).isSome then failure
      else .array <$> ns.mapM (nodeJson anchored depth)
    | .mapping m es, depth + 1 =>
      if (ownTag m).isSome then failure
      else
        .ofFields <$> es.mapM fun (k, v) => do
          pure (← Part.text ⟨k, depth, anchored⟩, ← nodeJson anchored depth v)
    | _, _ => failure

/-- Records in YAML. -/
def format : Format Following Part where
  text := Part.text
  integer := Part.integer
  flag := Part.flag
  optional := Part.optional
  items := Part.items
  entries := Part.entries
  fields := Part.fields
  word _ := Part.word
  json p := nodeJson p.anchored p.depth p.node

/-- Reads the document in a text. -/
def read? {α : Type} (read : Part → Following α) (text : String) : Option α := do
  let n ← Node.ofTokens? (← tokens? text)
  (read ⟨n, 128, n.anchored.reverse⟩).run' (100 * n.size)

end Yaml
end Steward

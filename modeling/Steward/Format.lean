/-
# Reading records from a format

Modules, states and settings are read from JSON values, from JSON text and from YAML. What a format
knows is how texts, integers, lists and records look in it (`Format`); what a record knows is which
fields it has and which of them may be missing. A reading is a function of the format, so each
record is described once.

Key definitions: `Format`, `Format.required`, `Format.defaulted`, `Format.instant`.
-/
import Steward.Json.Basic
import Steward.Time.Rfc3339

namespace Steward

/-- How the values that records are made of look in a format with nodes `δ`; a reading fails in `m`.
-/
structure Format (m : Type → Type) (δ : Type) where
  /-- The text of a node. -/
  text : δ → m String
  /-- The integer of a node, within bounds. -/
  integer : (low high : Int) → δ → m Int
  /-- The truth value of a node. -/
  flag : δ → m Bool
  /-- The node again, unless it stands for nothing. -/
  optional : δ → m (Option δ)
  /-- The items of a list. -/
  items : δ → m (List δ)
  /-- The entries of a map in the order in which they are written. -/
  entries : δ → m (List (String × δ))
  /-- The nodes of those of the named fields that a record gives. -/
  fields : List String → δ → m (List (String × δ))
  /-- The one of the words that a node is. -/
  word : List String → δ → m String
  /-- The JSON value of a node. -/
  json : δ → m Json

namespace Format

variable {m : Type → Type} [Monad m] [MonadExcept Unit m] {δ α : Type}

/-- A field that a record must give. -/
def required (fs : List (String × δ)) (name : String) (read : δ → m α) : m α :=
  match fs.lookup name with
  | some d => read d
  | none => throw ()

/-- A field that has a value when it is missing. -/
def defaulted (fs : List (String × δ)) (name : String) (absent : α) (read : δ → m α) : m α :=
  match fs.lookup name with
  | some d => read d
  | none => pure absent

/-- A value that may be nothing. -/
def maybe (F : Format m δ) (read : δ → m α) (d : δ) : m (Option α) := do
  match ← F.optional d with
  | some d => some <$> read d
  | none => pure none

/-- A list of values. -/
def list (F : Format m δ) (read : δ → m α) (d : δ) : m (List α) := do
  (← F.items d).mapM read

/-- A map from names; of two entries with one name the later counts. -/
def map (F : Format m δ) (read : δ → m α) (d : δ) : m (NameMap α) := do
  let es ← (← F.entries d).mapM fun (k, v) => do pure (k, ← read v)
  pure (.ofList es)

/-- A natural number below a bound. -/
def below (F : Format m δ) (bound : Nat) (d : δ) : m Nat := do
  pure (← F.integer 0 (bound - 1) d).toNat

/-- A point in time, as a timestamp. -/
def instant (F : Format m δ) (d : δ) : m Instant := do
  match Instant.parse? (← F.text d) with
  | some t => pure t
  | none => throw ()

/-- A value of a finite kind, by its word. -/
def choice (F : Format m δ) (words : List (String × α)) (d : δ) : m α := do
  match words.lookup (← F.word (words.map Prod.fst) d) with
  | some a => pure a
  | none => throw ()

end Format
end Steward

/-
# Settings from variables

Each of eight variables overrides one setting. They are looked at in a fixed order; a value that
cannot be read ends it there, and the overrides before it stay.

Key definitions: `Override`, `Override.all`, `Override.apply`, `Settings.override`.
-/
import Steward.Settings.Basic

namespace Steward

/-! ### Values -/

/-- Why a value cannot be read. -/
inductive ValueFault where
  | empty
  | badDigit
  | tooLarge
  | noFlag
deriving DecidableEq

def ValueFault.message : ValueFault → String
  | empty => "cannot parse integer from empty string"
  | badDigit => "invalid digit found in string"
  | tooLarge => "number too large to fit in target type"
  | noFlag => "provided string was not `true` or `false`"

/-- Reads digits after a number that is there already; the first fault counts. -/
def digitsBelow (bound : Nat) : Nat → List Char → Except ValueFault Nat
  | n, [] => .ok n
  | n, c :: cs =>
    if !Text.isDigit c then .error .badDigit
    else
      let n := n * 10 + (c.toNat - 48)
      if bound ≤ n then .error .tooLarge else digitsBelow bound n cs

/-- A natural number below a bound, with a plus in front or not. -/
def numberBelow (bound : Nat) (s : String) : Except ValueFault Nat :=
  match s.toList with
  | [] => .error .empty
  | ['+'] => .error .badDigit
  | '+' :: cs => digitsBelow bound 0 cs
  | cs => digitsBelow bound 0 cs

def word32 (s : String) : Except ValueFault UInt32 := (numberBelow UInt32.size s).map .ofNat

def word64 (s : String) : Except ValueFault UInt64 := (numberBelow UInt64.size s).map .ofNat

/-- A truth value by its word. -/
def flagValue (s : String) : Except ValueFault Bool :=
  if s = "true" then .ok true else if s = "false" then .ok false else .error .noFlag

/-! ### Overrides -/

/-- The name of a variable, and the settings that its value makes of others. -/
structure Override where
  name : String
  set : String → Settings → Except ValueFault Settings

namespace Override

/-- An override by a value that is read without the blanks around it. -/
def trimmed {α : Type} (name : String) (read : String → Except ValueFault α)
    (set : α → Settings → Settings) : Override :=
  ⟨name, fun v s => (read (Text.trim v)).map (set · s)⟩

/-- An override by a value as it is. -/
def verbatim (name : String) (set : String → Settings → Settings) : Override :=
  ⟨name, fun v s => .ok (set v s)⟩

/-- The overrides in their order. -/
def all : List Override :=
  [trimmed "EDGE_MAX_RESTART_COUNT" word32 fun v s =>
     { s with restart := { s.restart with maxRestarts := v } },
   trimmed "EDGE_COOL_OFF_UNIT_SECS" word64 fun v s =>
     { s with restart := { s.restart with coolOffSeconds := v } },
   trimmed "EDGE_CAP_EXPONENT" word32 fun v s =>
     { s with restart := { s.restart with cap := v } },
   trimmed "EDGE_INTENSIVE_CARE_SECS" word64 fun v s =>
     { s with restart := { s.restart with intensiveCareSeconds := v } },
   trimmed "EDGE_MAX_ATTEMPTS" word32 fun v s => { s with running := ⟨v⟩ },
   verbatim "EDGE_STATE_PATH" fun v s => { s with store := ⟨some v⟩ },
   verbatim "EDGE_LOG_LEVEL" fun v s => { s with logging := { s.logging with level := v } },
   trimmed "EDGE_LOG_JSON" flagValue fun v s => { s with logging := { s.logging with json := v } }]

/-- The fault of a value that cannot be read. -/
def fault (name value : String) (f : ValueFault) : SettingsFault :=
  .invalid name ("cannot parse '" ++ value ++ "': " ++ f.message)

/-- Applies overrides in order up to the first fault. Answers also what the settings are then. -/
def apply (lookup : String → Option String) :
    List Override → Settings → Except SettingsFault Unit × Settings
  | [], s => (.ok (), s)
  | o :: os, s =>
    match lookup o.name with
    | none => apply lookup os s
    | some v =>
      match o.set v s with
      | .ok s => apply lookup os s
      | .error f => (.error (fault o.name v f), s)

end Override

/-- The settings with all overrides, as far as they go. -/
def Settings.override (lookup : String → Option String) (s : Settings) :
    Except SettingsFault Unit × Settings :=
  Override.apply lookup Override.all s

end Steward

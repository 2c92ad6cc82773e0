/-
# What is remembered about a module's restarts

The number of restarts since the last reset, which stops at the largest number of 32 bits, and the
time of the last one, which a reset leaves alone.

Key definitions: `RestartState`, `RestartState.record`, `RestartState.reset`, `RestartState.first`,
`RestartState.never`.
-/
import Steward.Module.Record

namespace Steward

/-- The restarts of a module. -/
structure RestartState where
  count : UInt32
  last : Instant
deriving DecidableEq

namespace RestartState

/-- A module that was never restarted. -/
def never : RestartState := ⟨0, .epoch⟩

instance : Inhabited RestartState := ⟨never⟩

/-- A module restarted for the first time. -/
def first (now : Instant) : RestartState := ⟨1, now⟩

/-- One more restart. -/
def record (now : Instant) (s : RestartState) : RestartState :=
  ⟨if s.count = 4294967295 then s.count else s.count + 1, now⟩

/-- The count starts again; the time of the last restart stays. -/
def reset (s : RestartState) : RestartState := ⟨0, s.last⟩

def text (s : RestartState) : String :=
  Text.natText s.count.toNat ++ " restarts (last at " ++ s.last.textWithOffset ++ ")"

def toJson (s : RestartState) : Json :=
  .object [("restart_count", .nat s.count.toNat), ("last_restart_time_utc", s.last.toJson)]

variable {m : Type → Type} [Monad m] [MonadExcept Unit m] {δ : Type}

def read (F : Format m δ) (d : δ) : m RestartState := do
  let fs ← F.fields ["restart_count", "last_restart_time_utc"] d
  pure
    { count := .ofNat (← Format.required fs "restart_count" (F.below UInt32.size))
      last := ← Format.required fs "last_restart_time_utc" F.instant }

end RestartState
end Steward

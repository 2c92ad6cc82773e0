/-
# When to restart a module

A module that should run and does not is restarted as its rule says, but never within the backoff
window of its last restart, and not at all once it was restarted too often. A module that should
stand still and runs is stopped. The count is taken back once the module has been running for the
time of intensive care.

Key definitions: `RestartPolicy`, `RestartPolicy.decision`, `RestartPolicy.pastIntensiveCare`,
`Decision`.
-/
import Steward.Restart.Backoff
import Steward.Restart.State

namespace Steward

/-- What to do about a module. -/
inductive Decision where
  | restart
  | stop
  | wait
  | giveUp
  | none
deriving DecidableEq

def Decision.text : Decision → String
  | restart => "restart"
  | stop => "stop"
  | wait => "wait"
  | giveUp => "give up"
  | none => "no action"

/-- How often and how soon modules are restarted. -/
structure RestartPolicy where
  maxRestarts : UInt32 := 5
  backoff : Backoff := {}
  intensiveCare : Duration := .ofSeconds 600
deriving DecidableEq

/-- Whether the observation is of a module that failed: it says so, or that the module ended with an
exit code other than zero. -/
def Observed.hasFailed (o : Observed) : Bool :=
  match o.status with
  | .failed | .backoff => true
  | .stopped => o.exitCode.any (· != 0)
  | .running | .unknown => false

/-- Whether the rule asks to restart a module of which this was observed. -/
def RestartRule.applies (r : RestartRule) (o : Observed) : Bool :=
  match r with
  | .never => false
  | .onFailure => o.hasFailed
  | .onUnhealthy => o.hasFailed || o.status == .unknown
  | .always => o.status != .running

namespace RestartPolicy

instance : Inhabited RestartPolicy := ⟨{}⟩

/-- The time since the last restart; none if that lies ahead. -/
def elapsed (state : RestartState) (now : Instant) : Duration :=
  (now.since state.last).getD .zero

/-- What to do about a module with that history. -/
def decision (p : RestartPolicy) (m : Module) (state : RestartState) (now : Instant) : Decision :=
  match m.observed with
  | none => .none
  | some o =>
    if m.status = .stopped ∧ o.status = .running then .stop
    else if m.status ≠ .running ∨ m.restartRule.applies o = false then .none
    else if p.maxRestarts ≤ state.count then .giveUp
    else if (elapsed state now).shorter (p.backoff.window state.count) then .wait
    else .restart

/-- Whether the module has been running for the time of intensive care. -/
def pastIntensiveCare (p : RestartPolicy) (m : Module) (now : Instant) : Bool :=
  match m.observed with
  | some o =>
    o.status == .running &&
      (o.startedAt.bind now.since).any fun d => !d.shorter p.intensiveCare
  | none => false

end RestartPolicy
end Steward

/-
# What a cycle acts on

A host stands for everything outside: the runtime that carries out requests, the store of restart
states, the clock, and the signal that cancels a cycle. All of them are steps over one state, and
nothing is assumed of them; between two steps others may move the state (`pause`), so the signal may
come at any time.

A request is handed the token of whoever makes it: the cycle's own, or the fresh one of a rollback,
which nobody cancels.

Key definitions: `Host`, `Signals`, `Request`, `Token`, `Host.ensureLive`.
-/
import Steward.Module.Basic
import Steward.Store.Basic

namespace Steward

/-- Whose cancellation a step obeys. -/
inductive Token where
  | cycle
  | fresh
deriving DecidableEq

/-- What a runtime is asked to do. Every request names the module on whose behalf it is made. -/
inductive Request where
  | pull (name image : String) (credentials : Option Credentials)
  | create (m : Module) (identity : Option Identity)
  | start (name : String)
  | stop (name : String)
  | remove (name : String)
  | restart (name : String)
  | setStatus (name : String) (status : Status)
  | apply (m : Module) (runtime : RuntimeInfo) (identity : Option Identity)
  | delete (name : String)
  | rollout (name : String)
  | scale (name : String) (replicas : Nat)

/-- The module that a request is about. -/
def Request.module : Request → String
  | pull name .. | start name | stop name | remove name | restart name | setStatus name _ => name
  | create m _ | apply m .. => m.name
  | delete name | rollout name | scale name _ => name

/-- What a run hears from outside: whether it was cancelled, and how time passes. -/
structure Signals (σ : Type) where
  /-- What happens elsewhere before a step. -/
  pause : σ → σ
  cancelled : σ → Bool
  now : σ → Instant
  /-- Lets time pass; answers whether cancellation cut it short. -/
  wait : Duration → σ → Bool × σ

/-- Whether a token is cancelled, after a pause. -/
def Signals.isCancelled {σ : Type} (g : Signals σ) (t : Token) (s : σ) : Bool × σ :=
  let s := g.pause s
  (t == .cycle && g.cancelled s, s)

/-- The world that a cycle runs in, over a state `σ`. -/
structure Host (σ : Type) extends Signals σ where
  request : Token → Request → Step σ Unit
  store : StateStore σ

namespace Host

variable {σ : Type}

/-- Fails for the module if the token is cancelled. -/
def ensureLive (h : Host σ) (t : Token) (module : String) : Step σ Unit := fun s =>
  match h.isCancelled t s with
  | (true, s) => (.error (.command (.cancelled module)), s)
  | (false, s) => (.ok (), s)

end Host
end Steward
